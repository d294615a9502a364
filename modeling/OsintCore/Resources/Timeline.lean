import OsintCore.Indexer.Store
import OsintCore.Resources.Basic

namespace Resources

structure TimelineEntry where
  documentId : DocumentId
  title      : Option String
  time       : Timestamp
  timeSource : String

structure EntityTimeline where
  entityId  : EntityId
  entries   : List TimelineEntry
  truncated : Bool

def timelineTimeSource (publishedAt : Option Timestamp) : String :=
  if publishedAt.isSome then "published_at" else "observed_at"

def sortTimelineDescending (entries : List TimelineEntry) : List TimelineEntry :=
  entries.mergeSort fun a b => decide (b.time ≤ a.time)

end Resources

namespace IndexerStore

variable (σ : IndexerStore)

-- ORDER BY id ASC
def listEntityExtractionsByEntity (id : EntityId) (limit : Nat) : List EntityExtraction :=
  σ.entityExtractions.rows.filter (·.entityId = id) |>.take (Store.clampLimit limit)

-- An extraction from a document which does not exist, or which repeats another one, is skipped.
def timelineEntry (extraction : EntityExtraction) : Option Resources.TimelineEntry := do
  let doc ← σ.getDocument extraction.objectId
  if doc.duplicateOf.isSome then none else
  return {
    documentId := doc.id
    title      := doc.title
    time       := doc.publishedAt.getD doc.observedAt
    timeSource := Resources.timelineTimeSource doc.publishedAt }

end IndexerStore

namespace Resources

-- `clamp(1, 100)` of what the query asks for
def timelineLimit (limit : Option UInt32) : Nat :=
  max 1 (min (limit.getD 20).toNat 100)

def entityTimeline (σ : IndexerStore) (role : Role) (id : EntityId) (limit : Option UInt32) :
    Except ApiError EntityTimeline := do
  role.require .read
  let limit := timelineLimit limit
  match σ.getEntity id with
  | none   => throw <| .notFound <|
    "找不到 Entity " ++ quoted id.toText ++ "。請用 GET /api/v1/entities 確認 id"
  | some _ =>
    let extractions := σ.listEntityExtractionsByEntity id limit
    return {
      entityId  := id
      entries   := sortTimelineDescending <| extractions.filterMap σ.timelineEntry
      truncated := limit ≤ extractions.length }

end Resources
