import OsintCore.Control.Graph
import OsintCore.Control.Run
import OsintCore.Dedup.Theorems.Steps

open Relation (Acyclic ReflTransGen TransGen)
open Resumption

namespace Relation

variable {α : Type} [Preorder α] {r : α → α → Prop} {a b : α}

theorem TransGen.lt_of_lt (hr : ∀ a b, r a b → b < a) (h : TransGen r a b) : b < a := by
  induction h
  case single h       => exact hr _ _ h
  case tail h hi      => exact (hr _ _ h).trans hi

theorem acyclic_of_lt (hr : ∀ a b, r a b → b < a) : Acyclic r :=
  fun _ h => (TransGen.lt_of_lt hr h).false

end Relation

-- Each duplicate names an older document.
def Store.Backward (σ : Store) : Prop :=
  ∀ d ∈ σ.documents, ∀ c ∈ d.duplicateOf, c < d.id

namespace Store

variable {σ : Store} {a b e : DocumentId}

theorem Backward.lt (hb : σ.Backward) (h : σ.DuplicateOf a b) : b < a := by
  have ⟨d, hd, hi, hc⟩ := h
  exact hi ▸ hb d hd b hc

theorem Backward.of_none (h : ∀ d ∈ σ.documents, d.duplicateOf = none) : σ.Backward :=
  fun d hd _ hc => by simp [h d hd] at hc

theorem Backward.acyclic (hb : σ.Backward) : Acyclic σ.DuplicateOf :=
  Relation.acyclic_of_lt fun _ _ => hb.lt

theorem Backward.chainEnd_le (hb : σ.Backward) (h : σ.ChainEnd a e) : e ≤ a := by
  obtain h | h := Relation.reflTransGen_iff_eq_or_transGen.mp h.path
  case inl => exact h.le
  case inr => exact (Relation.TransGen.lt_of_lt (fun _ _ => hb.lt) h).le

end Store

namespace Deduplicator

variable {w : Deduplicator} {σ τ : Store} {c : Call}

theorem resolveFrom_chainEnd {start a : DocumentId} {n : Nat}
    (hp : ReflTransGen σ.DuplicateOf start a) : (resolveFrom start n a).Ensures σ
      (fun e τ => τ = σ ∧ ∀ b ∈ e, σ.ChainEnd start b) fun _ τ => τ = σ ∧ True := by
  induction n generalizing a
  case zero => exact ⟨rfl, trivial⟩
  case succ n hi =>
    simp only [resolveFrom, ensures_bind, ensures_read]
    split
    case h_1 => exact ⟨rfl, by simp⟩
    case h_2 d hd =>
      have hs : (∀ b, d.duplicateOf = some b → b = a) → σ.ChainEnd start a := fun h =>
        ⟨hp, fun b hb => h b <| Store.duplicateOf_iff hd |>.mp hb⟩
      split
      case h_2 hn => exact ⟨rfl, by simpa using hs <| by simp [hn]⟩
      case h_1 next hn =>
        split_ifs with hne
        case pos => exact hi <| hp.tail <| Store.duplicateOf_iff hd |>.mpr hn
        case neg => exact ⟨rfl, by simpa using hs <| by simp_all⟩

theorem resolves_chainEnd : Resolves σ σ.ChainEnd fun _ => True :=
  fun _ => resolveFrom_chainEnd .refl

-- If the search names a neighbour then the neighbour's chain ends with an older document.
def SearchesBackward (w : Deduplicator) (σ : Store) (c : Call) : Prop :=
  ∀ d, σ.getDocument c.documentId = some d → ∀ a s m, w.detect d c.neighbours = .hit a s m →
    ∀ e, σ.ChainEnd a e → e < c.documentId

theorem Processed.backward (h : w.Processed σ c σ.ChainEnd τ) (hb : σ.Backward)
    (hs : w.SearchesBackward σ c) : τ.Backward := by
  cases h
  case unchanged hd => rwa [Store.Backward, hd]
  case written d hit hf hh hd =>
    intro d' hd' b hd''
    rw [hd] at hd'
    obtain rfl | ⟨hd', _⟩ := Table.mem_put.mp hd'
    case inr => exact hb d' hd' b hd''
    case inl =>
      have ⟨h, hm, he⟩ := Option.map_eq_some_iff.mp hd''
      have ⟨a, hc, ha⟩ := hh.right h hm
      have hi : d.id = c.documentId := Table.get?_key hf
      obtain hl | ⟨s, m, hl⟩ := hc.lt_or_semantic
      case inl => exact he ▸ (hb.chainEnd_le ha).trans_lt hl
      case inr => exact he ▸ (hs d hf a s m hl _ ha).trans_eq hi.symm

theorem step_backward (hb : σ.Backward) (hs : w.SearchesBackward σ c) : (w.step σ c).Backward := by
  have h := dedupDocument_ensures (w := w) (c := c) <| resolves_chainEnd (σ := σ)
  exact h.mono (fun _ _ h => h) (fun _ _ h => h.left) |>.exec |>.backward hb hs

-- The duplicates never close a cycle for as long as the vector search only leads to older documents.
theorem run_backward {calls : List Call} (hb : σ.Backward)
    (hs : calls.Along w.step w.SearchesBackward σ) : ∀ earlier, earlier <+: calls →
      (w.run σ earlier).Backward ∧ Acyclic (w.run σ earlier).DuplicateOf := by
  intro earlier hp
  have h : (w.run σ earlier).Backward :=
    (hs.take hp).foldl hb fun _ _ hb hs => step_backward hb hs
  exact ⟨h, h.acyclic⟩

end Deduplicator

namespace Sample

def note (id : DocumentId) (body : String) : Document where
  id                    := id
  objectType            := .post
  schemaVersion         := "1"
  title                 := none
  body                  := some body
  summary               := none
  language              := none
  author                := none
  publishedAt           := none
  modifiedAt            := none
  observedAt            := 0
  collectedAt           := 0
  sourceUrl             := none
  canonicalUrl          := none
  normalizedContentHash := some body
  confidence            := 1
  labels                := []
  attributes            := .object []
  externalKey           := none
  simhash               := none
  duplicateOf           := none

def deduplicator : Deduplicator where
  bounds               := { simhashMaxDistance := 3 }
  similarityThreshold  := 9 / 10
  model _              := "multilingual-e5-small"
  detectorId           := "vector-knn"
  processorVersion     := "0.1.0"
  newV5                := newV5
  parseUuid            := String.toNat?
  formatUuid           := toString
  isSyntheticImportUrl := (·.startsWith "import://")
  canonicalize         := some
  hashContent _ _ body := body.getD ""
  fingerprint _        := none

def neighbour (id : DocumentId) : SearchHit :=
  { id := toString id, documentId := some id, similarity := 19 / 20 }

-- Two documents which are similar to each other.
def similarNotes : Store := .mk
  { documents := ⟨[note 1 "a", note 2 "b"], by decide⟩ }

end Sample

namespace Deduplicator

-- The newer of the two is compared with the older one.
def similarCall : Call where
  documentId := 2
  now        := 7
  claimId    := 41
  neighbours := some [Sample.neighbour 1]

def similarCall' : Call where
  documentId := 1
  now        := 8
  claimId    := 42
  neighbours := some [Sample.neighbour 2]

theorem similarCall_searchesBackward :
    Sample.deduplicator.SearchesBackward Sample.similarNotes similarCall := by
  intro d hd a s m hm e he
  cases hd
  have h : Sample.deduplicator.detect (Sample.note 2 "b") similarCall.neighbours =
      .hit 1 (19 / 20) "multilingual-e5-small" := by decide +kernel
  cases h.symm.trans hm
  have hb : Sample.similarNotes.Backward := .of_none (by decide)
  exact (hb.chainEnd_le he).trans_lt <| by decide

theorem run_backward_similarCall :
    (Sample.deduplicator.run Sample.similarNotes [similarCall]).Backward ∧
      Acyclic (Sample.deduplicator.run Sample.similarNotes [similarCall]).DuplicateOf :=
  run_backward (.of_none <| by decide)
    (List.along_cons.mpr ⟨similarCall_searchesBackward, List.along_nil⟩) _ (List.prefix_refl _)

theorem not_run_backward : ¬∀ (w : Deduplicator) (σ : Store) (calls : List Call),
    (∀ d ∈ σ.documents, d.duplicateOf = none) → (w.run σ calls).Backward := by
  intro h
  have hb := h Sample.deduplicator Sample.similarNotes [similarCall, similarCall'] (by decide)
  have hd : ∃ d ∈ (Sample.deduplicator.run Sample.similarNotes [similarCall, similarCall']).documents.rows,
      d.id = 1 ∧ d.duplicateOf = some 1 := by decide +kernel
  have ⟨d, hd, hi, hc⟩ := hd
  exact absurd (hb d hd 1 hc) <| by simp [hi]

end Deduplicator
