import OsintCore.Control.Except
import OsintCore.Resources.Timeline
import OsintCore.Storage.Theorems.Listing

namespace IndexerStore

variable {σ : IndexerStore} {id : EntityId} {limit : Nat} {x : EntityExtraction}

-- The object is a document of its own.
def Canonical (σ : IndexerStore) (id : ObjectId) : Prop :=
  ∃ doc, σ.getDocument id = some doc ∧ doc.duplicateOf = none

-- The entity has been extracted from the document.
def Mentions (σ : IndexerStore) (id : EntityId) (documentId : DocumentId) : Prop :=
  ∃ x ∈ σ.entityExtractions, x.entityId = id ∧ x.objectId = documentId

theorem listEntityExtractionsByEntity_mentions
    (h : x ∈ σ.listEntityExtractionsByEntity id limit) : σ.Mentions id x.objectId := by
  have h := List.mem_of_mem_take h
  have ⟨hx, hi⟩ := List.mem_filter.mp h
  exact ⟨x, hx, by simpa using hi, rfl⟩

theorem timelineEntry_eq_some {e : Resources.TimelineEntry} : σ.timelineEntry x = some e ↔
    ∃ doc, σ.getDocument x.objectId = some doc ∧ doc.duplicateOf = none ∧ e = {
      documentId := doc.id
      title      := doc.title
      time       := doc.publishedAt.getD doc.observedAt
      timeSource := Resources.timelineTimeSource doc.publishedAt } := by
  unfold timelineEntry
  cases σ.getDocument x.objectId
  case none => simp
  case some doc =>
    cases h : doc.duplicateOf
    case some => simp [h]
    case none => simpa [h] using eq_comm

theorem timelineEntry_documentId {e : Resources.TimelineEntry} (h : σ.timelineEntry x = some e) :
    e.documentId = x.objectId ∧ σ.Canonical x.objectId := by
  have ⟨doc, hd, hc, he⟩ := timelineEntry_eq_some.mp h
  subst he
  exact ⟨Table.get?_key hd, doc, hd, hc⟩

theorem exists_timelineEntry (h : σ.Canonical x.objectId) :
    ∃ e, σ.timelineEntry x = some e ∧ e.documentId = x.objectId := by
  have ⟨doc, hd, hc⟩ := h
  exact ⟨_, timelineEntry_eq_some.mpr ⟨doc, hd, hc, rfl⟩, Table.get?_key hd⟩

-- Two rows show one document twice.
def Repeats (σ : IndexerStore) (x y : EntityExtraction) : Prop :=
  x.objectId = y.objectId ∧ σ.Canonical x.objectId

theorem nodup_timelineEntries {rows : List EntityExtraction} :
    ((rows.filterMap σ.timelineEntry).map (·.documentId)).Nodup ↔
      rows.Pairwise fun x y => ¬σ.Repeats x y := by
  rw [List.Nodup, List.pairwise_map, List.pairwise_filterMap]
  apply List.Pairwise.iff
  intro x y
  constructor
  case mp =>
    intro h ⟨hr, hc⟩
    have ⟨e, he, hi⟩ := exists_timelineEntry hc
    have ⟨e', he', hi'⟩ := exists_timelineEntry (hr ▸ hc)
    exact h e he e' he' (hi.trans <| hr.trans hi'.symm)
  case mpr =>
    intro h e he e' he' hd
    have ⟨hi, hc⟩ := timelineEntry_documentId he
    have ⟨hi', _⟩ := timelineEntry_documentId he'
    exact h ⟨hi.symm.trans <| hd.trans hi', hc⟩

theorem mem_listEntityExtractionsByEntity
    (h : (σ.listEntityExtractionsByEntity id limit).length < Store.clampLimit limit) :
    x ∈ σ.listEntityExtractionsByEntity id limit ↔ x ∈ σ.entityExtractions ∧ x.entityId = id := by
  simp [listEntityExtractionsByEntity, List.mem_take_of_length_lt h, Table.mem_def]

end IndexerStore

namespace Resources

variable {σ : IndexerStore} {id : EntityId} {role : Role} {limit : Option UInt32}
  {t : EntityTimeline}

-- The timeline shows documents which mention the entity, the latest first and none of them twice.
-- Unless it is truncated it shows all of them.
structure EntityTimeline.Faithful (σ : IndexerStore) (id : EntityId) (t : EntityTimeline) :
    Prop where
  distinct : (t.entries.map (·.documentId)).Nodup
  sorted   : t.entries.Pairwise fun e e' => e'.time ≤ e.time
  shown    : ∀ e ∈ t.entries, ∃ doc, σ.getDocument e.documentId = some doc ∧
    doc.duplicateOf = none ∧ σ.Mentions id e.documentId ∧ e.title = doc.title ∧
    e.time = doc.publishedAt.getD doc.observedAt
  complete : t.truncated = false → ∀ documentId, σ.Canonical documentId →
    σ.Mentions id documentId → documentId ∈ t.entries.map (·.documentId)

theorem entityTimeline_eq_ok (h : entityTimeline σ role id limit = .ok t) :
    t.entries = sortTimelineDescending
        ((σ.listEntityExtractionsByEntity id (timelineLimit limit)).filterMap σ.timelineEntry) ∧
      t.truncated = decide (timelineLimit limit ≤
        (σ.listEntityExtractionsByEntity id (timelineLimit limit)).length) := by
  have ⟨_, _, h⟩ := Except.bind_eq_ok.mp h
  cases he : σ.getEntity id
  case none => simp [he] at h
  case some =>
    simp only [he] at h
    cases h
    exact ⟨rfl, rfl⟩

theorem sorted_sortTimelineDescending {entries : List TimelineEntry} :
    (sortTimelineDescending entries).Pairwise fun e e' => e'.time ≤ e.time := by
  apply List.Pairwise.imp (fun {_ _} h => of_decide_eq_true h)
  apply List.pairwise_mergeSort
  case trans =>
    intro a b c h₁ h₂
    simp only [decide_eq_true_eq] at *
    exact h₂.trans h₁
  case total =>
    intro a b
    simp only [Bool.or_eq_true, decide_eq_true_eq]
    exact le_total _ _

theorem perm_sortTimelineDescending {entries : List TimelineEntry} :
    (sortTimelineDescending entries).Perm entries :=
  List.mergeSort_perm _ _

theorem clampLimit_timelineLimit :
    Store.clampLimit (timelineLimit limit) = timelineLimit limit := by
  unfold Store.clampLimit timelineLimit
  omega

-- A document is shown as often as the listed extractions name it.
theorem entityTimeline_faithful_iff (h : entityTimeline σ role id limit = .ok t) :
    t.Faithful σ id ↔ (σ.listEntityExtractionsByEntity id (timelineLimit limit)).Pairwise
      fun x y => ¬σ.Repeats x y := by
  have ⟨he, ht⟩ := entityTimeline_eq_ok h
  have hp : t.entries.Perm
      ((σ.listEntityExtractionsByEntity id (timelineLimit limit)).filterMap σ.timelineEntry) :=
    he ▸ perm_sortTimelineDescending
  rw [← IndexerStore.nodup_timelineEntries, ← (hp.map (·.documentId)).nodup_iff]
  refine ⟨(·.distinct), fun hd => ⟨hd, ?_, fun e hm => ?_, fun hf documentId hc hm => ?_⟩⟩
  case refine_1 => exact he ▸ sorted_sortTimelineDescending
  case refine_2 =>
    have ⟨x, hx, hs⟩ := List.mem_filterMap.mp (hp.mem_iff.mp hm)
    have ⟨hi, _⟩ := IndexerStore.timelineEntry_documentId hs
    have ⟨doc, hd, hc, hr⟩ := IndexerStore.timelineEntry_eq_some.mp hs
    rw [hi]
    exact ⟨doc, hd, hc, IndexerStore.listEntityExtractionsByEntity_mentions hx, by simp [hr]⟩
  case refine_3 =>
    have hl : (σ.listEntityExtractionsByEntity id (timelineLimit limit)).length <
        Store.clampLimit (timelineLimit limit) := by
      rw [clampLimit_timelineLimit]
      simpa [ht] using hf
    have ⟨x, hx, hi, ho⟩ := hm
    subst ho
    have ⟨e, hs, hd⟩ := IndexerStore.exists_timelineEntry hc
    have hx := (IndexerStore.mem_listEntityExtractionsByEntity hl).mpr ⟨hx, hi⟩
    have he := hp.mem_iff.mpr <| List.mem_filterMap.mpr ⟨x, hx, hs⟩
    exact hd ▸ List.mem_map_of_mem he

namespace Sample

def report (id : DocumentId) (publishedAt : Timestamp) : Document where
  id                    := id
  objectType            := .report
  schemaVersion         := "1"
  title                 := some "t"
  body                  := none
  summary               := none
  language              := none
  author                := none
  publishedAt           := some publishedAt
  modifiedAt            := none
  observedAt            := 5
  collectedAt           := 9
  sourceUrl             := none
  canonicalUrl          := none
  normalizedContentHash := none
  confidence            := 1
  labels                := []
  attributes            := .object []
  externalKey           := none
  simhash               := none
  duplicateOf           := none

def mention (id : EntityExtractionId) (objectId : ObjectId) (extractor : String) :
    EntityExtraction where
  id               := id
  objectId         := objectId
  entityId         := 1
  extractor        := extractor
  extractorVersion := "1"
  confidence       := 1
  textOffset       := none
  excerpt          := none

-- The later document has the smaller id, and the third one repeats the first.
def mentionedOnce : IndexerStore where
  documents         :=
    { rows   := [report 6 4, report 7 3, { report 8 5 with duplicateOf := some 6 }]
      sorted := by decide }
  entities          := { rows := [Sample.person 1 "a"], sorted := by decide }
  entityExtractions :=
    { rows   := [mention 1 7 "regex", mention 2 6 "regex", mention 3 8 "regex"]
      sorted := by decide }

-- Two extractors have found the entity in one document.
def mentionedTwice : IndexerStore where
  documents         := { rows := [report 7 3], sorted := by decide }
  entities          := { rows := [Sample.person 1 "a"], sorted := by decide }
  entityExtractions := { rows := [mention 1 7 "regex", mention 2 7 "dictionary"], sorted := by decide }

end Sample

theorem entityTimeline_faithful_iff_mentionedOnce :
    ∃ t, entityTimeline Sample.mentionedOnce .viewer 1 none = .ok t ∧
      t.Faithful Sample.mentionedOnce 1 ∧ t.entries.map (·.documentId) = [6, 7] := by
  have hs : (Sample.mentionedOnce.listEntityExtractionsByEntity 1 (timelineLimit none)).Pairwise
      fun x y => ¬Sample.mentionedOnce.Repeats x y :=
    IndexerStore.nodup_timelineEntries.mp (by decide +kernel)
  refine ⟨_, rfl, (entityTimeline_faithful_iff (show entityTimeline Sample.mentionedOnce .viewer 1
    none = .ok _ from rfl)).mpr hs, ?_⟩
  have he : (Sample.mentionedOnce.listEntityExtractionsByEntity 1 (timelineLimit none)).filterMap
      Sample.mentionedOnce.timelineEntry =
        [⟨7, some "t", 3, "published_at"⟩, ⟨6, some "t", 4, "published_at"⟩] := rfl
  rw [he, sortTimelineDescending]
  simp [List.mergeSort, List.MergeSort.Internal.splitInTwo]

theorem not_entityTimeline_faithful : ¬∀ (σ : IndexerStore) (role : Role) (id : EntityId)
    (limit : Option UInt32) (t : EntityTimeline), entityTimeline σ role id limit = .ok t →
      t.Faithful σ id := by
  intro h
  have hd := (h Sample.mentionedTwice .viewer 1 none _ rfl).distinct
  have hd := (perm_sortTimelineDescending.map (·.documentId)).nodup_iff.mp hd
  exact absurd hd (by decide +kernel)

end Resources
