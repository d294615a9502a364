import OsintCore.Normalizer.Store
import OsintCore.Resources.Store

-- `Vec::dedup`: of consecutive equal elements the first one stays.
def vecDedup {α : Type} [DecidableEq α] : List α → List α
  | []          => []
  | [a]         => [a]
  | a :: b :: l => if a = b then vecDedup (b :: l) else a :: vecDedup (b :: l)

namespace Collector

open Resources

-- What `collect_known` attaches to the evidence of a run.
def collectionIds (s : ResourceStore) (sourceId : SourceId) (connectorId : ConnectorId) :
    List CollectionId :=
  let ids := s.listCollectionsBySource sourceId 100 ++ s.listCollectionsByConnector connectorId 100
  vecDedup <| ids.mergeSort (· ≤ ·)

end Collector

-- The tables of the normalizer, with the foreign keys of its link tables.
structure EvidenceStore extends NormalizerStore where
  evidence_links : ∀ link ∈ rawEvidenceCollections, (rawEvidence.get? link.fst).isSome := by decide
  object_links   : ∀ link ∈ collectionObjects, (documents.get? link.snd).isSome := by decide

namespace EvidenceStore

variable (s : EvidenceStore)

-- ON CONFLICT DO NOTHING
def linkEvidence (id : RawEvidenceId) (links : List (RawEvidenceId × CollectionId))
    (collectionId : CollectionId) : List (RawEvidenceId × CollectionId) :=
  if (id, collectionId) ∈ links then links else links ++ [(id, collectionId)]

theorem fst_linkEvidence {id : RawEvidenceId} {ids : List CollectionId}
    {links : List (RawEvidenceId × CollectionId)} :
    ∀ link ∈ ids.foldl (linkEvidence id) links, link ∈ links ∨ link.fst = id := by
  induction ids generalizing links
  case nil => exact fun _ => .inl
  case cons i l hi =>
    intro link h
    have h := hi link h
    unfold linkEvidence at h
    split at h
    case isTrue  => exact h
    case isFalse => simp only [List.mem_append, List.mem_singleton] at h; grind

-- The evidence and its links are written in one transaction.
def insertRawEvidence (evidence : CollectedEvidence) (ids : List CollectionId) :
    Except StorageError EvidenceStore :=
  if (s.rawEvidence.get? evidence.id).isSome then
    .error .conflict
  else
    .ok { s with
      rawEvidence            := s.rawEvidence.put evidence
      rawEvidenceCollections := ids.foldl (linkEvidence evidence.id) s.rawEvidenceCollections
      provenance_raw         := s.provenance_raw.put_right
      evidence_links         := fun link h => by
        obtain h | h := fst_linkEvidence link h
        · exact Table.isSome_get?_put (s.evidence_links link h)
        · rw [h, Table.get?_put]
          exact (if_pos rfl) ▸ rfl }

end EvidenceStore
