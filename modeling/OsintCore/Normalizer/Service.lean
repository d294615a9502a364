import OsintCore.Api.Pagination
import OsintCore.Normalizer.Store

inductive ContentClass
  | rssOrAtom | html | json | csv | unsupported
  deriving DecidableEq, Repr

inductive ImportKind
  | json | csv | manual
  deriving DecidableEq, Repr

namespace ImportKind

def asStr : ImportKind → String
  | json   => "json"
  | csv    => "csv"
  | manual => "manual"

end ImportKind

structure ImportSpec where
  kind       : ImportKind
  mapping    : Json
  limits     : Json
  objectType : DocumentType

-- One item of a feed or of a page.
structure ParsedItem where
  externalId  : Option String
  url         : Option String
  title       : Option String
  publishedAt : Option Timestamp
  summary     : Option String
  author      : Option String
  attributes  : Json

structure ImportRecord where
  index          : Nat
  externalId     : Option String
  title          : Option String
  summary        : Option String
  body           : Option String
  url            : Option String
  author         : Option String
  language       : Option String
  publisher      : Option String
  publishedAt    : Option Timestamp
  publishedAtRaw : Option String

inductive NormalizeOutcome
  | created (documentIds : List DocumentId)
  | alreadyDone (documentIds : List DocumentId)
  | skippedUnsupported (contentType : Option String)
  | skippedUnparseable (message : String)
  deriving DecidableEq, Repr

-- `unavailable` stands for all failures of the store and of the bucket which are no answer.
inductive NormalizerError
  | storage (e : StorageError)
  | unavailable
  | evidenceMissing (id : RawEvidenceId)
  | bodyMissing (path : String)
  deriving DecidableEq, Repr

-- The parsers, the guesses at what a body is and the hash are parameters of the normalizer.
structure Normalizer where
  processorVersion  : String
  classifyContent   : Option String → Option String → String → ContentClass
  bodyLooksLikeFeed : Body → Bool
  bodyLooksLikeHtml : Body → Bool
  parseFeed         : Body → Except String (List ParsedItem)
  parseHtml         : Body → Except String (List ParsedItem)
  importSpec        : Json → Option ImportSpec
  parseImport       : Body → ImportSpec → Option (Except String (List ImportRecord))
  contentHash       : Option String → Option String → Option String → String

namespace Normalizer

def processor : String := "normalizer"
def schemaVersion : String := "1"

abbrev M := Resumption NormalizerStore NormalizerError

-- The calls which can fail. A transaction is one of them.
inductive Access
  | listProvenance | getRawEvidence | getObject | transaction | rollback | listAgain
  deriving DecidableEq, Repr

-- A call is answered, is not carried out, or is carried out while its answer gets lost.
inductive Reply
  | answered | failed | lost
  deriving DecidableEq, Repr

-- The identifiers are those which the library makes up in this call.
structure Call where
  rawEvidenceId : RawEvidenceId
  now           : Timestamp
  ids           : Nat → Uuid
  reply         : Access → Reply

namespace Call

variable (c : Call)

def read {α : Type} (a : Access) (f : NormalizerStore → α) : M α :=
  if c.reply a = .answered then .read f else .fail .unavailable

-- What is written before the transaction ends is seen by nobody else.
def transaction (f : NormalizerStore → Except StorageError NormalizerStore) :
    M (Except StorageError Unit) :=
  match c.reply .transaction with
  | .answered => .attempt f
  | .failed   => .fail .unavailable
  | .lost     => do
    let _ ← (.attempt f : M (Except StorageError Unit))
    .fail .unavailable

end Call

variable (w : Normalizer)

section Documents

-- Only keys with a value are written.
def documentAttributes (evidenceId : RawEvidenceId) (extra : Json)
    (pairs : List (String × Option Json)) : Json :=
  let map := Json.insert (extra.asObject.getD []) "raw_evidence_id"
    (.string <| Uuid.toText evidenceId)
  let map := pairs.foldl (fun map (key, value) => value.elim map (Json.insert map key)) map
  .object <| map.filter fun
    | (_, .null)     => false
    | (_, .string s) => Text.trim s ≠ ""
    | _              => true

def documentOfItem (evidence : CollectedEvidence) (objectType : DocumentType) (now : Timestamp)
    (item : ParsedItem) (id : DocumentId) : Document :=
  let bodyText := item.attributes.get "body_text" >>= Json.asStr
  let sourceUrl := item.url <|> some evidence.sourceUrl
  { id
    objectType
    schemaVersion         := schemaVersion
    title                 := item.title
    body                  := bodyText
    summary               := item.summary
    language              := none
    author                := item.author
    publishedAt           := item.publishedAt
    modifiedAt            := none
    observedAt            := now
    collectedAt           := evidence.retrievedAt
    sourceUrl
    canonicalUrl          := sourceUrl
    normalizedContentHash := some <| w.contentHash item.title item.summary bodyText
    confidence            := 8 / 10
    labels                := []
    attributes            := documentAttributes evidence.id item.attributes
      [("external_id", item.externalId.map .string)]
    externalKey           := none
    simhash               := none
    duplicateOf           := none }

def documentOfRecord (evidence : CollectedEvidence) (spec : ImportSpec) (now : Timestamp)
    (record : ImportRecord) (id : DocumentId) : Document :=
  let sourceUrl := record.url <|> some evidence.sourceUrl
  { id
    objectType            := spec.objectType
    schemaVersion         := schemaVersion
    title                 := record.title
    body                  := record.body
    summary               := record.summary
    language              := record.language
    author                := record.author
    publishedAt           := record.publishedAt
    modifiedAt            := none
    observedAt            := now
    collectedAt           := evidence.retrievedAt
    sourceUrl
    canonicalUrl          := sourceUrl
    normalizedContentHash := some <| w.contentHash record.title record.summary record.body
    confidence            := 8 / 10
    labels                := []
    attributes            := documentAttributes evidence.id (.object []) [
      ("external_id", record.externalId.map .string),
      ("import_kind", some <| .string spec.kind.asStr),
      ("record_index", some <| .number record.index),
      ("published_at_raw",
        if record.publishedAt.isNone then record.publishedAtRaw.map .string else none),
      ("publisher", record.publisher.map .string)]
    externalKey           := none
    simhash               := none
    duplicateOf           := none }

def importSpecOf (evidence : CollectedEvidence) : Option ImportSpec :=
  evidence.metadata.get "import" >>= w.importSpec

def unsupported (evidence : CollectedEvidence) : NormalizeOutcome :=
  .skippedUnsupported evidence.contentType

-- The documents without their identifiers, or the outcome when there is nothing to make them from.
def buildImportDocuments (evidence : CollectedEvidence) (body : Body) (spec : ImportSpec)
    (now : Timestamp) : Except NormalizeOutcome (List (DocumentId → Document)) :=
  match w.parseImport body spec with
  | some (.ok records)     => .ok <| records.map (w.documentOfRecord evidence spec now)
  | some (.error message)  => .error (.skippedUnparseable message)
  | none                   => .error (unsupported evidence)

def classify (evidence : CollectedEvidence) (body : Body) : ContentClass :=
  match w.classifyContent evidence.contentType evidence.mimeType evidence.storagePath with
  | .unsupported =>
    if w.bodyLooksLikeFeed body then .rssOrAtom
    else if w.bodyLooksLikeHtml body then .html
    else .unsupported
  | other => other

def itemsOf (evidence : CollectedEvidence) (body : Body) (objectType : DocumentType)
    (now : Timestamp) (parse : Body → Except String (List ParsedItem)) :
    Except NormalizeOutcome (List (DocumentId → Document)) :=
  match parse body with
  | .ok items      => .ok <| items.map (w.documentOfItem evidence objectType now)
  | .error message => .error (.skippedUnparseable message)

def documentsOf (evidence : CollectedEvidence) (body : Body) (now : Timestamp) :
    Except NormalizeOutcome (List (DocumentId → Document)) :=
  match w.importSpecOf evidence with
  | some spec =>
    if spec.kind = .manual then .error (unsupported evidence)
    else w.buildImportDocuments evidence body spec now
  | none =>
    match w.classify evidence body with
    | .rssOrAtom                  => w.itemsOf evidence body .article now w.parseFeed
    | .html                       => w.itemsOf evidence body .webPage now w.parseHtml
    | .json | .csv | .unsupported => .error (unsupported evidence)

end Documents

section Persist

variable (c : Call) (evidence : CollectedEvidence) (documents : List Document)

def derivedOf (document : Document) (id : ProvenanceId) : Provenance where
  id               := id
  subjectId        := document.id
  action           := actionDerived
  parentId         := some evidence.id
  rawEvidenceId    := some evidence.id
  processor        := processor
  processorVersion := w.processorVersion
  timestamp        := c.now
  metadata         := .object [("document_id", .string <| Uuid.toText document.id)]

def claimOf (id : ProvenanceId) : Provenance where
  id               := id
  subjectId        := (documents.head?.map (·.id)).getD evidence.id
  action           := actionNormalized
  parentId         := some evidence.id
  rawEvidenceId    := some evidence.id
  processor        := processor
  processorVersion := w.processorVersion
  timestamp        := c.now
  metadata         := .object [
    ("document_ids", .array <| documents.map fun d => .string <| Uuid.toText d.id),
    ("item_count", .number documents.length)]

-- One turn of the loop over the documents.
def writeDocument (collectionIds : List CollectionId) (s : NormalizerStore)
    (row : Document × ProvenanceId) : Except StorageError NormalizerStore :=
  let s := s.putDocument row.fst
  let s := collectionIds.foldl (·.linkCollectionObject · row.fst.id) s
  s.putProvenance (w.derivedOf c evidence row.fst row.snd)

-- The transaction: all of it is written, or nothing.
def writeDocuments (s : NormalizerStore) : Except StorageError NormalizerStore := do
  let n := documents.length
  let collectionIds := s.listCollectionsByRawEvidence evidence.id 100
  let rows := documents.zipIdx.map fun (document, k) => (document, c.ids (n + k))
  let s ← rows.foldlM (w.writeDocument c evidence collectionIds) s
  s.putProvenance (w.claimOf c evidence documents (c.ids (n + n)))

def documentIdsFrom (claim : Provenance) : List DocumentId :=
  (claim.metadata.get "document_ids" >>= Json.asArray).getD []
    |>.filterMap Json.asStr |>.filterMap Uuid.parseStr

def existingClaim (access : Access) : M (Option Provenance) :=
  c.read access fun s =>
    s.listProvenanceByRawEvidence c.rawEvidenceId |>.find? (·.action = actionNormalized)

-- Who comes second to the claim reports the one of the other. The event which is published after
-- the transaction is left out.
def persistDocuments : M NormalizeOutcome := do
  match ← c.transaction (w.writeDocuments c evidence documents) with
  | .ok ()           => return .created (documents.map (·.id))
  | .error .conflict => do
    c.read .rollback fun _ => ()
    match ← existingClaim c .listAgain with
    | some done => return .alreadyDone (documentIdsFrom done)
    | none      => .fail (.storage .conflict)
  | .error e => .fail (.storage e)

end Persist

def normalizeRaw (c : Call) : M NormalizeOutcome := do
  match ← existingClaim c .listProvenance with
  | some done => return .alreadyDone (documentIdsFrom done)
  | none      => do
    match ← c.read .getRawEvidence (·.getRawEvidence c.rawEvidenceId) with
    | none          => .fail (.evidenceMissing c.rawEvidenceId)
    | some evidence => do
      match ← c.read .getObject (·.objects evidence.storagePath) with
      | none      => .fail (.bodyMissing evidence.storagePath)
      | some body =>
        match w.documentsOf evidence body c.now with
        | .error outcome => return outcome
        | .ok documents  =>
          w.persistDocuments c evidence <|
            documents.zipIdx.map fun (document, k) => document (c.ids k)

end Normalizer
