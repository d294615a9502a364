import OsintCore.Indexer.Consumer
import OsintCore.Indexer.Theorems.Flush

namespace Indexer

-- The fields which the indexer writes, and those of the embedding worker.
def bodyFields : List String :=
  ["document_id", "object_type", "schema_version", "title", "summary", "body", "author", "language",
   "labels", "source_id", "connector_id", "raw_evidence_id", "canonical_url", "source_url",
   "published_at", "observed_at", "collected_at", "effective_date", "indexed_at", "duplicate_of",
   "confidence", "entities", "entity_count"]

def embeddingFields : List String :=
  ["embedding_en", "embedding_en_model_version", "embedding_multi",
   "embedding_multi_model_version"]

-- What the indexer reads about a document.
structure View where
  document   : Document
  entities   : List IndexEntity
  provenance : Provenance

def view (σ : IndexerStore) (id : DocumentId) : Option View :=
  (σ.getDocument id).map fun document => ⟨document, loadEntities σ id, loadProvenance σ document⟩

def bodyOf (w : Indexer) (v : View) (now : Timestamp) : List (String × Json) :=
  buildBody w.rfc3339 v.document v.provenance v.entities now w.bounds.maxFieldBytes

theorem isSome_lookup_bodyOf (w : Indexer) (v : View) (now : Timestamp) (name : String) :
    ((bodyOf w v now).lookup name).isSome ↔ name ∈ bodyFields := by
  have h (l : List (String × Json)) : (l.lookup name).isSome ↔ name ∈ l.map Prod.fst := by
    induction l
    case nil => simp
    case cons f l hi =>
      have hb : (name == f.fst) = decide (name = f.fst) := rfl
      by_cases he : name = f.fst
      case pos => simp [he]
      case neg =>
        rw [List.lookup_cons, hb, decide_eq_false he, hi, List.map_cons, List.mem_cons,
          or_iff_right he]
  exact h _

theorem not_mem_bodyFields {name : String} (h : name ∈ embeddingFields) : name ∉ bodyFields := by
  have hd : ∀ name ∈ embeddingFields, name ∉ bodyFields := by decide
  exact hd name h

-- The document is in the index as it is in the store, whenever it has been written, and a duplicate
-- is not.
def Shows (w : Indexer) (v : Option View) (index : SearchIndex) (id : DocumentId) : Prop :=
  match v with
  | none   => index id = none
  | some v =>
    if v.document.duplicateOf.isSome then index id = none
    else (index id).isSome ∧ ∃ now, ∀ name, name ∉ embeddingFields →
      index.fieldOf id name = (bodyOf w v now).lookup name

theorem shows_some {w : Indexer} {v : View} {index : SearchIndex} {id : DocumentId}
    (h : v.document.duplicateOf = none) : Shows w (some v) index id ↔ (index id).isSome ∧
      ∃ now, ∀ name, name ∉ embeddingFields →
        index.fieldOf id name = (bodyOf w v now).lookup name := by
  simp [Shows, h]

theorem shows_duplicate {w : Indexer} {v : View} {index : SearchIndex} {id : DocumentId}
    (h : v.document.duplicateOf.isSome) : Shows w (some v) index id ↔ index id = none := by
  simp [Shows, h]

theorem Shows.congr {w : Indexer} {v : Option View} {index index' : SearchIndex} {id : DocumentId}
    (h : Shows w v index id) (hs : (index' id).isSome = (index id).isSome)
    (hf : ∀ name, name ∉ embeddingFields → index'.fieldOf id name = index.fieldOf id name) :
    Shows w v index' id := by
  have hn (h : index id = none) : index' id = none := by simpa [h] using hs
  cases v
  case none   => exact hn h
  case some v =>
    cases hd : v.document.duplicateOf
    case none =>
      have ⟨hi, now, h⟩ := (shows_some hd).mp h
      exact (shows_some hd).mpr ⟨hs ▸ hi, now, fun name hm => (hf name hm).trans (h name hm)⟩
    case some =>
      have hd : v.document.duplicateOf.isSome := by simp [hd]
      exact (shows_duplicate hd).mpr <| hn <| (shows_duplicate hd).mp h

theorem prepare_eq (w : Indexer) (σ : IndexerStore) (index : SearchIndex) (id : DocumentId)
    (now : Timestamp) : w.prepare σ index id now none =
      match view σ id with
      | none   => (.ok (.missing id), index)
      | some v =>
        if v.document.duplicateOf.isSome then
          (.ok (.removedDuplicate id (index id).isSome), Function.update index id none)
        else (.ok (.ready ⟨id, bodyOf w v now⟩), index) := by
  cases hd : σ.getDocument id
  case none   => simp [prepare, view, hd]
  case some d =>
    have hi : d.id = id := Table.get?_key hd
    simp [prepare, view, hd, SearchIndex.delete, buildSearchDocument, bodyOf, hi]

end Indexer
