import OsintCore.Control.Resumption
import OsintCore.Storage.Store
import OsintCore.Url.Canonical

inductive DedupStage
  | platformExternalId | canonicalUrl | contentHash | simhash | semantic
  deriving DecidableEq, Repr

namespace DedupStage

def asStr : DedupStage → String
  | platformExternalId => "platform_external_id"
  | canonicalUrl       => "canonical_url"
  | contentHash        => "content_sha256"
  | simhash            => "simhash"
  | semantic           => "semantic"

def number : DedupStage → Nat
  | platformExternalId => 1
  | canonicalUrl       => 2
  | contentHash        => 3
  | simhash            => 4
  | semantic           => 5

end DedupStage

structure DedupBounds where
  candidateLimit     : Nat := 20
  simhashScanLimit   : Nat := 500
  simhashMaxDistance : Nat

structure DedupKeys where
  platform     : Option String
  externalId   : Option String
  externalKey  : Option String
  canonicalUrl : Option String
  contentHash  : Option String
  simhash      : Option Int64

structure DuplicateHit where
  canonicalObjectId : DocumentId
  stage             : DedupStage
  similarity        : Confidence
  model             : Option String

-- A neighbour in the vector index, which may be out of date.
structure SearchHit where
  id         : String
  documentId : Option DocumentId
  similarity : Confidence

inductive SemanticOutcome
  | unsupported
  | noMatch
  | hit (canonicalObjectId : DocumentId) (similarity : Confidence) (model : String)
  deriving DecidableEq

inductive DedupOutcome
  | canonical (documentId : DocumentId)
  | duplicate (documentId canonicalObjectId : DocumentId) (stage : DedupStage)
    (similarity : Confidence) (groupId : DuplicateGroupId)
  | alreadyDone (documentId : DocumentId) (canonicalObjectId : Option DocumentId)
  | documentMissing (documentId : DocumentId)
  deriving DecidableEq

inductive DeduplicatorError
  | storage (e : StorageError)
  | duplicateChainTooDeep (id : DocumentId) (max : Nat)
  deriving DecidableEq

-- The fingerprints, the normalization of URLs, the embedding model and the UUID library are
-- parameters of the deduplicator.
structure Deduplicator where
  bounds               : DedupBounds
  similarityThreshold  : Confidence
  model                : Document → String
  detectorId           : String
  processorVersion     : String
  newV5                : V5Name → Uuid
  parseUuid            : String → Option Uuid
  formatUuid           : Uuid → String
  isSyntheticImportUrl : String → Bool
  canonicalize         : String → Option String
  hashContent          : Option String → Option String → Option String → String
  fingerprint          : String → Option Int64

namespace Deduplicator

abbrev M := Resumption Store DeduplicatorError

-- What the vector search answers when a document is compared with its neighbours, if it answers at
-- all, belongs to the call.
structure Call where
  documentId : DocumentId
  now        : Timestamp
  claimId    : ProvenanceId
  neighbours : Option (List SearchHit)

variable (w : Deduplicator)

def put (f : Store → Except StorageError Store) : M Unit :=
  .write fun σ => (f σ).mapError .storage

section Claim

def asUuid (j : Json) : Option Uuid :=
  j.asStr >>= w.parseUuid

def existingClaim (documentId : DocumentId) : M (Option DedupOutcome) :=
  .read fun σ =>
    σ.listProvenanceBySubject documentId |>.find? (·.action = actionDeduplicated) |>.map fun claim =>
      .alreadyDone documentId (claim.metadata.get "canonical_object_id" >>= w.asUuid)

end Claim

section Keys

def rawEvidenceIdOf (document : Document) : Option RawEvidenceId :=
  document.attributes.get "raw_evidence_id" >>= w.asUuid

-- The platform belongs to the source of the raw evidence.
def platformOf (document : Document) : M (Option String) :=
  match w.rawEvidenceIdOf document with
  | none       => return none
  | some rawId => do
    match ← .read (·.getRawEvidence rawId) with
    | none          => return none
    | some evidence => do
      let source ← .read (·.getSource evidence.sourceId)
      return source >>= Source.platform

-- Without one of the two there is no key.
def externalKeyOf (platform externalId : Option String) : Option String := do
  let platform ← platform
  let externalId ← externalId
  if platform ≠ "" ∧ externalId ≠ "" then some (platform ++ "|" ++ externalId) else none

-- The URL of an import only says from which file a document comes.
def canonicalUrlOf (sourceUrl : Option String) : Option String :=
  if sourceUrl.any w.isSyntheticImportUrl then none else sourceUrl >>= w.canonicalize

def simhashInput (document : Document) : String :=
  [document.title, document.summary, document.body].reduceOption.foldl (· ++ · ++ " ") ""

def keysOf (document : Document) (platform : Option String) : DedupKeys :=
  let externalId := document.attributes.get "external_id" >>= Json.asStr
  { platform
    externalId
    externalKey  := externalKeyOf platform externalId
    canonicalUrl := w.canonicalUrlOf document.sourceUrl
    contentHash  := document.normalizedContentHash <|>
      some (w.hashContent document.title document.summary document.body)
    simhash      := w.fingerprint (simhashInput document) }

def deriveKeys (document : Document) : M DedupKeys := do
  let platform ← w.platformOf document
  return w.keysOf document platform

end Keys

section Find

def maxChainDepth : Nat := 8

def resolveFrom (start : DocumentId) : Nat → DocumentId → M (Option DocumentId)
  | 0,     _       => .fail (.duplicateChainTooDeep start maxChainDepth)
  | n + 1, current => do
    match ← .read (·.getDocument current) with
    | none     => return none
    | some doc =>
      match doc.duplicateOf with
      | some next => if next ≠ current then resolveFrom start n next else return some current
      | none      => return some current

def resolveCanonical (start : DocumentId) : M (Option DocumentId) :=
  resolveFrom start maxChainDepth start

def firstCanonical : List DocumentId → M (Option DocumentId)
  | []         => return none
  | first :: _ => resolveCanonical first

-- One of the stages which look up a key.
def keyStage (stage : DedupStage) (key : Option String)
    (find : Store → String → List DocumentId) : M (Option DuplicateHit) :=
  match key with
  | none     => return none
  | some key => do
    let candidates ← .read (find · key)
    let canonical ← firstCanonical candidates
    return canonical.map ({ canonicalObjectId := ·, stage, similarity := 1, model := none })

-- The closest candidate, and among equally close ones the oldest.
def closest (fingerprint : Int64) (candidates : List SimhashCandidate) : Option SimhashCandidate :=
  candidates.argmin fun c => toLex (hammingDistance c.simhash fingerprint, c.id)

def simhashSimilarity (distance : Nat) : Confidence :=
  1 - (min distance 64 : Nat) / 64

def simhashStage (document : Document) (fingerprint : Option Int64) : M (Option DuplicateHit) :=
  match fingerprint with
  | none             => return none
  | some fingerprint => do
    let candidates ← .read (·.findSimhashCandidates fingerprint w.bounds.simhashMaxDistance document.id
      w.bounds.simhashScanLimit)
    match closest fingerprint candidates with
    | none      => return none
    | some best => do
      let canonical ← resolveCanonical best.id
      return canonical.map fun id => {
        canonicalObjectId := id
        stage             := .simhash
        similarity        := simhashSimilarity (hammingDistance best.simhash fingerprint)
        model             := none }

def matchedText (document : Document) : Option String :=
  document.body.filter (· ≠ "") <|> document.title.filter (· ≠ "")

-- The document itself is not a neighbour.
def betterHit (document : Document) (best : Option (DocumentId × Confidence)) (hit : SearchHit) :
    Option (DocumentId × Confidence) :=
  if hit.id = w.formatUuid document.id then
    best
  else
    match hit.documentId with
    | none           => best
    | some canonical =>
      if canonical ≠ document.id ∧ w.similarityThreshold ≤ hit.similarity ∧
        best.all (·.snd < hit.similarity)
      then some (canonical, hit.similarity)
      else best

def detect (document : Document) (neighbours : Option (List SearchHit)) : SemanticOutcome :=
  match matchedText document, neighbours with
  | none,   _         => .noMatch
  | some _, none      => .unsupported
  | some _, some hits =>
    match hits.foldl (w.betterHit document) none with
    | none                  => .noMatch
    | some (id, similarity) => .hit id similarity (w.model document)

def semanticStage (document : Document) (neighbours : Option (List SearchHit)) :
    M (Option DuplicateHit) :=
  match w.detect document neighbours with
  | .unsupported | .noMatch    => return none
  | .hit hitId similarity model => do
    let canonical ← resolveCanonical hitId
    return canonical.map fun id =>
      { canonicalObjectId := id, stage := .semantic, similarity, model := some model }

def orNext (stage next : M (Option DuplicateHit)) : M (Option DuplicateHit) := do
  match ← stage with
  | some hit => return some hit
  | none     => next

def findDuplicate (document : Document) (keys : DedupKeys) (neighbours : Option (List SearchHit)) :
    M (Option DuplicateHit) :=
  let limit := w.bounds.candidateLimit
  orNext (keyStage .platformExternalId keys.externalKey
    fun σ key => σ.findDocumentIdsByExternalKey key document.id limit) <|
  orNext (keyStage .canonicalUrl keys.canonicalUrl
    fun σ url => σ.findDocumentIdsByCanonicalUrl url document.id limit) <|
  orNext (keyStage .contentHash keys.contentHash
    fun σ hash => σ.findDocumentIdsByContentHash hash document.id limit) <|
  orNext (w.simhashStage document keys.simhash) <|
  w.semanticStage document neighbours

end Find

section Record

def groupModel (hit : DuplicateHit) : Option String :=
  if hit.stage = .semantic then hit.model else none

def duplicateGroupId (memberObjectId : ObjectId) : DuplicateGroupId :=
  w.newV5 (.duplicateGroup memberObjectId)

def groupOf (document : Document) (hit : DuplicateHit) (firstSeen : Timestamp) :
    DuplicateGroup where
  id                  := w.duplicateGroupId document.id
  canonicalObjectId   := hit.canonicalObjectId
  memberObjectId      := some document.id
  memberRawEvidenceId := w.rawEvidenceIdOf document
  method              := hit.stage.asStr
  similarity          := hit.similarity
  firstSeen           := firstSeen
  model               := groupModel hit

-- A group keeps the time at which it was seen first.
def writeGroup (document : Document) (hit : DuplicateHit) (now : Timestamp) : M DuplicateGroupId := do
  let existing ← .read (·.getDuplicateGroup (w.duplicateGroupId document.id))
  let firstSeen := existing.elim now DuplicateGroup.firstSeen
  put (·.putDuplicateGroup (w.groupOf document hit firstSeen))
  return w.duplicateGroupId document.id

def updated (document : Document) (keys : DedupKeys) (hit : Option DuplicateHit) : Document :=
  { document with
    externalKey  := keys.externalKey
    canonicalUrl := keys.canonicalUrl <|> document.canonicalUrl
    simhash      := keys.simhash
    duplicateOf  := hit.map DuplicateHit.canonicalObjectId }

def processor : String := "deduplicator"

def jsonOf (a : Option String) : Json :=
  a.elim .null .string

def claimOf (document : Document) (hit : Option DuplicateHit) (keys : DedupKeys) (now : Timestamp)
    (claimId : ProvenanceId) : Provenance where
  id               := claimId
  subjectId        := document.id
  action           := actionDeduplicated
  parentId         := hit.map DuplicateHit.canonicalObjectId
  rawEvidenceId    := w.rawEvidenceIdOf document
  processor        := processor
  processorVersion := w.processorVersion
  timestamp        := now
  metadata         := .object [
    ("is_duplicate", .bool hit.isSome),
    ("stage", jsonOf (hit.map (·.stage.asStr))),
    ("stage_number", hit.elim .null (.number ·.stage.number)),
    ("canonical_object_id", jsonOf (hit.map (w.formatUuid ·.canonicalObjectId))),
    ("similarity", hit.elim .null (.float ·.similarity)),
    ("external_key", jsonOf keys.externalKey),
    ("canonical_url", jsonOf keys.canonicalUrl),
    ("content_sha256", jsonOf keys.contentHash),
    ("simhash", keys.simhash.elim .null (.number ·.toInt)),
    ("semantic_detector", .string w.detectorId),
    ("simhash_max_distance", .number w.bounds.simhashMaxDistance)]

def outcomeOf (documentId : DocumentId) :
    Option DuplicateHit → Option DuplicateGroupId → DedupOutcome
  | some hit, some groupId =>
    .duplicate documentId hit.canonicalObjectId hit.stage hit.similarity groupId
  | _, _                   => .canonical documentId

def writeHit (document : Document) (now : Timestamp) :
    Option DuplicateHit → M (Option DuplicateGroupId)
  | some hit => some <$> w.writeGroup document hit now
  | none     => return none

-- Who comes second to the claim reports the one of the other.
def takeClaim (document : Document) (hit : Option DuplicateHit) (groupId : Option DuplicateGroupId)
    (claim : Provenance) : M DedupOutcome := do
  match ← .attempt (·.putProvenance claim) with
  | .ok ()           => return outcomeOf document.id hit groupId
  | .error .conflict => do
    match ← w.existingClaim document.id with
    | some done => return done
    | none      => .fail (.storage .conflict)
  | .error e         => .fail (.storage e)

-- The claim comes after the document and its group. The event which is published afterwards is left
-- out.
def record (document : Document) (hit : Option DuplicateHit) (keys : DedupKeys) (now : Timestamp)
    (claimId : ProvenanceId) : M DedupOutcome := do
  let groupId ← w.writeHit document now hit
  put (·.putDocument document)
  w.takeClaim document hit groupId (w.claimOf document hit keys now claimId)

def dedupDocument (c : Call) : M DedupOutcome := do
  match ← w.existingClaim c.documentId with
  | some done => return done
  | none      => do
    match ← .read (·.getDocument c.documentId) with
    | none          => return .documentMissing c.documentId
    | some document => do
      let keys ← w.deriveKeys document
      let hit ← w.findDuplicate document keys c.neighbours
      w.record (updated document keys hit) hit keys c.now c.claimId

end Record

-- The documents are processed one after another. What has been written before a failure is kept.
def step (σ : Store) (c : Call) : Store :=
  (w.dedupDocument c).exec σ

def run (σ : Store) (calls : List Call) : Store :=
  calls.foldl w.step σ

end Deduplicator

namespace Deduplicator

variable (w : Deduplicator) (lib : UrlLib)

-- The fields of a log entry are only evaluated if its level is enabled.
def logUnusable (debugEnabled : Bool) (raw : String) : Except Panic Unit :=
  if debugEnabled then discard <| UrlNorm.short raw else return ()

def canonicalUrlFor (debugEnabled : Bool) (sourceUrl : Option String) :
    Except Panic (Option String) := do
  let synthetic := sourceUrl.any UrlNorm.isSyntheticImportUrl
  let canonicalUrl ← match sourceUrl with
    | some raw => if synthetic then pure none else UrlNorm.canonicalize lib raw
    | none     => pure none
  if canonicalUrl.isNone ∧ ¬synthetic then
    if let some raw := sourceUrl then
      logUnusable debugEnabled raw
  return canonicalUrl

-- `derive_keys` with the normalization of URLs and the log entry about a URL which has none.
def deriveKeysLogged (debugEnabled : Bool) (document : Document) : M (Except Panic DedupKeys) := do
  let platform ← w.platformOf document
  return do
    let canonicalUrl ← canonicalUrlFor lib debugEnabled document.sourceUrl
    return { w.keysOf document platform with canonicalUrl }

end Deduplicator
