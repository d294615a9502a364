import OsintCore.Indexer.Store
import OsintCore.Projection.Worker
import OsintCore.Search.Index

-- `snake_case`, as the columns of the store.
def DocumentType.text : DocumentType → String
  | article  => "article"
  | webPage  => "web_page"
  | post     => "post"
  | message  => "message"
  | report   => "report"
  | file     => "file"
  | advisory => "advisory"

def Json.ofOption {α : Type} (f : α → Json) (a : Option α) : Json :=
  a.elim .null f

namespace Indexer

structure IndexEntity where
  entityId       : EntityId
  entityType     : String
  name           : String
  normalizedName : String
  deriving DecidableEq

def IndexEntity.fromEntity (entity : Entity) : IndexEntity where
  entityId       := entity.id
  entityType     := entity.entityType.text
  name           := entity.name
  normalizedName := entity.normalizedName

-- The fields which are not columns of the document.
structure Provenance where
  rawEvidenceId : Option RawEvidenceId := none
  sourceId      : Option SourceId      := none
  connectorId   : Option Uuid          := none
  deriving DecidableEq

-- The longest beginning of a text which fits into a number of bytes.
def takeBytes : Nat → List Char → List Char
  | _, []             => []
  | maxBytes, c :: cs =>
    if c.utf8Size ≤ maxBytes then c :: takeBytes (maxBytes - c.utf8Size) cs else []

def truncateOnCharBoundary (text : String) (maxBytes : Nat) : String :=
  if text.utf8ByteSize ≤ maxBytes then text else .ofList (takeBytes maxBytes text.toList)

def insertText (key : String) (value : Option String) (maxBytes : Nat) : String × Json :=
  (key, .ofOption (fun text => .string (truncateOnCharBoundary text maxBytes)) value)

def effectiveDate (document : Document) : Timestamp :=
  document.publishedAt.getD document.observedAt

def uuidJson (id : Option Uuid) : Json :=
  .ofOption (fun id => .string (Uuid.toText id)) id

def entityJson (entity : IndexEntity) : Json :=
  .object [
    ("entity_id",       .string (Uuid.toText entity.entityId)),
    ("entity_type",     .string entity.entityType),
    ("name",            .string entity.name),
    ("normalized_name", .string entity.normalizedName)]

section

variable (rfc3339 : Timestamp → String)

def buildBody (document : Document) (provenance : Provenance) (entities : List IndexEntity)
    (indexedAt : Timestamp) (maxFieldBytes : Nat) : List (String × Json) :=
  let time (t : Timestamp) := Json.string (rfc3339 t)
  [ ("document_id",     .string (Uuid.toText document.id)),
    ("object_type",     .string document.objectType.text),
    ("schema_version",  .string document.schemaVersion),
    insertText "title"   document.title   maxFieldBytes,
    insertText "summary" document.summary maxFieldBytes,
    insertText "body"    document.body    maxFieldBytes,
    insertText "author"  document.author  1024,
    ("language",        .ofOption .string document.language),
    ("labels",          .array (document.labels.map .string)),
    ("source_id",       uuidJson provenance.sourceId),
    ("connector_id",    uuidJson provenance.connectorId),
    ("raw_evidence_id", uuidJson provenance.rawEvidenceId),
    ("canonical_url",   .ofOption .string document.canonicalUrl),
    ("source_url",      .ofOption .string document.sourceUrl),
    ("published_at",    .ofOption time document.publishedAt),
    ("observed_at",     time document.observedAt),
    ("collected_at",    time document.collectedAt),
    ("effective_date",  time (effectiveDate document)),
    ("indexed_at",      time indexedAt),
    ("duplicate_of",    uuidJson document.duplicateOf),
    ("confidence",      .float document.confidence),
    ("entities",        .array (entities.map entityJson)),
    ("entity_count",    .number entities.length) ]

def buildSearchDocument (document : Document) (provenance : Provenance)
    (entities : List IndexEntity) (indexedAt : Timestamp) (maxFieldBytes : Nat) :
    SearchDocument where
  id   := document.id
  body := buildBody rfc3339 document provenance entities indexedAt maxFieldBytes

end

end Indexer
