import OsintCore.Control.Resumption
import OsintCore.Storage.Store

abbrev CollectionId := Uuid

def actionNormalized : String := "normalized"
def actionDerived : String := "derived_from"

abbrev Body := List UInt8

-- The columns of `raw_evidence` which the normalizer reads.
structure CollectedEvidence where
  id          : RawEvidenceId
  sourceUrl   : String
  retrievedAt : Timestamp
  contentType : Option String
  mimeType    : Option String
  storagePath : String
  metadata    : Json

instance : Keyed CollectedEvidence Uuid := ⟨CollectedEvidence.id⟩

-- The entry of a provenance row in the partial unique index on `raw_evidence_id`.
def Provenance.normalizedOf (p : Provenance) : Option RawEvidenceId :=
  if p.action = actionNormalized then p.rawEvidenceId else none

-- The tables of the store and the bucket which the normalizer touches.
structure NormalizerStore where
  rawEvidence            : Table CollectedEvidence             := ∅
  rawEvidenceCollections : List (RawEvidenceId × CollectionId) := []
  documents              : Table Document                      := ∅
  collectionObjects      : Finset (CollectionId × ObjectId)    := ∅
  provenance             : Table Provenance                    := ∅
  objects                : String → Option Body                := fun _ => none
  -- idx_provenance_normalized_raw
  provenance_normalized : provenance.Unique Provenance.normalizedOf := by decide
  provenance_raw : provenance.References Provenance.rawEvidenceId rawEvidence := by decide

namespace NormalizerStore

variable (s : NormalizerStore)

def getRawEvidence (id : RawEvidenceId) : Option CollectedEvidence :=
  s.rawEvidence.get? id

-- ORDER BY timestamp, id
def listProvenanceByRawEvidence (id : RawEvidenceId) : List Provenance :=
  s.provenance.rows.filter (·.rawEvidenceId = some id)
    |>.insertionSort fun a b => a.timestamp < b.timestamp ∨ a.timestamp = b.timestamp ∧ a.id ≤ b.id

def collectionsOf (id : RawEvidenceId) : List CollectionId :=
  s.rawEvidenceCollections.filter (·.fst = id) |>.map Prod.snd

-- ORDER BY collection_id ASC
def listCollectionsByRawEvidence (id : RawEvidenceId) (limit : Nat) : List CollectionId :=
  (s.collectionsOf id).insertionSort (· ≤ ·) |>.take (Store.clampLimit limit)

-- The documents of the normalizer are not duplicates, so that no reference can be missing.
def putDocument (d : Document) : NormalizerStore :=
  { s with documents := s.documents.put d }

-- ON CONFLICT DO NOTHING
def linkCollectionObject (collectionId : CollectionId) (objectId : ObjectId) : NormalizerStore :=
  { s with collectionObjects := insert (collectionId, objectId) s.collectionObjects }

def putProvenance (p : Provenance) : Except StorageError NormalizerStore :=
  if hu : s.provenance.Admits Provenance.normalizedOf p then
    if hr : ∀ i ∈ p.rawEvidenceId, (s.rawEvidence.get? i).isSome then
      .ok { s with
        provenance            := s.provenance.put p
        provenance_normalized := s.provenance_normalized.put hu
        provenance_raw        := s.provenance_raw.put hr }
    else
      .error .constraintViolation
  else
    .error .conflict

end NormalizerStore
