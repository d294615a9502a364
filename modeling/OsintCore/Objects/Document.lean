import OsintCore.Objects.Basic
import OsintCore.Table.Constraints

structure Document where
  id                    : DocumentId
  objectType            : DocumentType
  schemaVersion         : String
  title                 : Option String
  body                  : Option String
  summary               : Option String
  language              : Option String
  author                : Option String
  publishedAt           : Option Timestamp
  modifiedAt            : Option Timestamp
  observedAt            : Timestamp
  collectedAt           : Timestamp
  sourceUrl             : Option String
  canonicalUrl          : Option String
  normalizedContentHash : Option String
  confidence            : Confidence
  labels                : List String
  attributes            : Json
  externalKey           : Option String
  simhash               : Option Int64
  duplicateOf           : Option DocumentId

structure Provenance where
  id               : ProvenanceId
  subjectId        : ObjectId
  action           : String
  parentId         : Option ObjectId
  rawEvidenceId    : Option RawEvidenceId
  processor        : String
  processorVersion : String
  timestamp        : Timestamp
  metadata         : Json

structure DuplicateGroup where
  id                  : DuplicateGroupId
  canonicalObjectId   : ObjectId
  memberObjectId      : Option ObjectId
  memberRawEvidenceId : Option RawEvidenceId
  method              : String
  similarity          : Confidence
  firstSeen           : Timestamp
  model               : Option String
  deriving DecidableEq

structure SimhashCandidate where
  id      : DocumentId
  simhash : Int64
  deriving DecidableEq

-- The number of bits in which two fingerprints differ.
def hammingDistance (a b : Int64) : Nat :=
  List.range 64 |>.countP fun i => (a ^^^ b).toBitVec.getLsbD i

-- Only the columns by which a document finds its source.
structure RawEvidence where
  id       : RawEvidenceId
  sourceId : SourceId
  deriving DecidableEq

structure Source where
  id       : SourceId
  platform : Option String
  deriving DecidableEq

instance : Keyed Document Uuid       := ⟨Document.id⟩
instance : Keyed Provenance Uuid     := ⟨Provenance.id⟩
instance : Keyed DuplicateGroup Uuid := ⟨DuplicateGroup.id⟩
instance : Keyed RawEvidence Uuid    := ⟨RawEvidence.id⟩
instance : Keyed Source Uuid         := ⟨Source.id⟩

-- The entry of a provenance row in the partial unique index on `subject_id` for an action.
def Provenance.subjectOf (action : String) (p : Provenance) : Option ObjectId :=
  if p.action = action then some p.subjectId else none

@[simp]
theorem Document.key_eq (d : Document) : Keyed.key d = d.id :=
  rfl

@[simp]
theorem Provenance.key_eq (p : Provenance) : Keyed.key p = p.id :=
  rfl

@[simp]
theorem DuplicateGroup.key_eq (g : DuplicateGroup) : Keyed.key g = g.id :=
  rfl
