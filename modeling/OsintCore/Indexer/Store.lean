import OsintCore.Storage.Store

-- The columns of `raw_evidence` which a search document shows.
structure IndexedEvidence where
  id          : RawEvidenceId
  sourceId    : SourceId
  connectorId : Uuid
  deriving DecidableEq

instance : Keyed IndexedEvidence Uuid := ⟨IndexedEvidence.id⟩

-- The tables of the store from which the indexer reads.
structure IndexerStore where
  documents         : Table Document         := ∅
  entities          : Table Entity           := ∅
  entityExtractions : Table EntityExtraction := ∅
  rawEvidence       : Table IndexedEvidence  := ∅
  duplicate_of : documents.References Document.duplicateOf documents := by decide
  extraction_entity :
    entityExtractions.References (some <| EntityExtraction.entityId ·) entities := by decide

namespace IndexerStore

def empty : IndexerStore := {}

variable (σ : IndexerStore)

def getDocument (id : DocumentId) : Option Document :=
  σ.documents.get? id

def getEntity (id : EntityId) : Option Entity :=
  σ.entities.get? id

def getRawEvidence (id : RawEvidenceId) : Option IndexedEvidence :=
  σ.rawEvidence.get? id

-- ORDER BY id ASC
def listEntityExtractionsByObject (id : ObjectId) (limit : Nat) : List EntityExtraction :=
  σ.entityExtractions.rows.filter (·.objectId = id) |>.take (Store.clampLimit limit)

end IndexerStore
