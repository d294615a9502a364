import OsintCore.Merge.Undo
import OsintCore.Merge.Theorems.Execute

open Except (bind_eq_ok map_eq_ok pure_eq_ok throw_eq)

-- The tables which the restoration of references leaves as they are.
def Tables.withoutReferences (t : Tables) : Tables :=
  { t with
    relationships     := ∅
    entityAliases     := ∅
    entityIdentifiers := ∅
    entityExtractions := ∅ }

namespace Merge

-- The column of a relationship which a reference names gets its previous value back.
def restoreColumn (r : RepointedReference) (now : Timestamp) (row : Relationship) : Relationship :=
  match r.column with
  | "source_object_id" => { row with sourceObjectId := r.previousValue, updatedAt := now }
  | "target_object_id" => { row with targetObjectId := r.previousValue, updatedAt := now }
  | _                  => row

-- What the restoration of a reference writes.
inductive Restores (db : Store) (r : RepointedReference) (now : Timestamp) :
    Store → Option Relationship → Prop
  | relationship {row : Relationship} {db' : Store} (table : r.table = "relationships")
    (column : r.column = "source_object_id" ∨ r.column = "target_object_id")
    (get : db.relationships.get? r.rowId = some row)
    (put : db.putRelationship (restoreColumn r now row) = .ok db') :
    Restores db r now db' (some (restoreColumn r now row))
  | entityAlias {row : EntityAlias} {db' : Store} (table : r.table = "entity_aliases")
    (column : r.column = "entity_id") (get : db.entityAliases.get? r.rowId = some row)
    (put : db.putEntityAlias { row with entityId := r.previousValue } = .ok db') :
    Restores db r now db' none
  | entityIdentifier {row : EntityIdentifier} {db' : Store} (table : r.table = "entity_identifiers")
    (column : r.column = "entity_id") (get : db.entityIdentifiers.get? r.rowId = some row)
    (put : db.putEntityIdentifier { row with entityId := r.previousValue } = .ok db') :
    Restores db r now db' none
  | entityExtraction {row : EntityExtraction} {db' : Store} (table : r.table = "entity_extractions")
    (column : r.column = "entity_id") (get : db.entityExtractions.get? r.rowId = some row)
    (put : db.putEntityExtraction { row with entityId := r.previousValue } = .ok db') :
    Restores db r now db' none

theorem restoreReference_eq_ok {db db' : Store} {r : RepointedReference} {now : Timestamp}
    {rel : Option Relationship} :
    restoreReference db r now = .ok (db', rel) ↔ Restores db r now db' rel := by
  constructor
  case mp =>
    intro h
    unfold restoreReference at h
    split at h
    case h_1 ht =>
      simp only [bind_eq_ok, orThrow_eq_ok] at h
      obtain ⟨row, hr, h⟩ := h
      split at h
      case h_1 hc =>
        simp only [pure_bind, bind_pure_comp, map_eq_ok, storage_eq_ok, Prod.mk.injEq] at h
        obtain ⟨_, hp, rfl, rfl⟩ := h
        have := fun db' => @Restores.relationship db r now row db' ht (.inl hc) hr
        simp only [restoreColumn, hc] at this
        exact this _ hp
      case h_2 hc =>
        simp only [pure_bind, bind_pure_comp, map_eq_ok, storage_eq_ok, Prod.mk.injEq] at h
        obtain ⟨_, hp, rfl, rfl⟩ := h
        have := fun db' => @Restores.relationship db r now row db' ht (.inr hc) hr
        simp only [restoreColumn, hc] at this
        exact this _ hp
      case h_3 => simp at h
    case h_2 ht =>
      simp only [bind_eq_ok, orThrow_eq_ok] at h
      obtain ⟨row, hg, h⟩ := h
      split_ifs at h with hc
      · simp at h
      simp only [bind_pure_comp, map_eq_ok, storage_eq_ok, Prod.mk.injEq] at h
      obtain ⟨_, hp, rfl, rfl⟩ := h
      rw [not_not] at hc
      exact .entityAlias ht hc hg hp
    case h_3 ht =>
      simp only [bind_eq_ok, orThrow_eq_ok] at h
      obtain ⟨row, hg, h⟩ := h
      split_ifs at h with hc
      · simp at h
      simp only [bind_pure_comp, map_eq_ok, storage_eq_ok, Prod.mk.injEq] at h
      obtain ⟨_, hp, rfl, rfl⟩ := h
      rw [not_not] at hc
      exact .entityIdentifier ht hc hg hp
    case h_4 ht =>
      simp only [bind_eq_ok, orThrow_eq_ok] at h
      obtain ⟨row, hg, h⟩ := h
      split_ifs at h with hc
      · simp at h
      simp only [bind_pure_comp, map_eq_ok, storage_eq_ok, Prod.mk.injEq] at h
      obtain ⟨_, hp, rfl, rfl⟩ := h
      rw [not_not] at hc
      exact .entityExtraction ht hc hg hp
    case h_5 => simp at h
  case mpr =>
    intro h
    cases h
    case relationship ht hc hg hp =>
      obtain hc | hc := hc
      all_goals
        simp only [restoreColumn, hc] at hp
        simp [restoreReference, restoreColumn, Store.getRelationship, ht, hg, hc, hp, orThrow]
    case entityAlias ht hc hg hp =>
      simp [restoreReference, Store.getEntityAlias, ht, hg, hc, hp, orThrow]
    case entityIdentifier ht hc hg hp =>
      simp [restoreReference, Store.getEntityIdentifier, ht, hg, hc, hp, orThrow]
    case entityExtraction ht hc hg hp =>
      simp [restoreReference, Store.getEntityExtraction, ht, hg, hc, hp, orThrow]

-- The effect of a restoration on the row with the id `i`, table by table.

def restoreAt (now : Timestamp) (i : Uuid) (v : Option Relationship) (r : RepointedReference) :
    Option Relationship :=
  if r.table = "relationships" ∧ r.rowId = i then v.map (restoreColumn r now) else v

def restoreAliasAt (i : Uuid) (v : Option EntityAlias) (r : RepointedReference) :
    Option EntityAlias :=
  if r.table = "entity_aliases" ∧ r.rowId = i then
    v.map fun a => { a with entityId := r.previousValue }
  else v

def restoreIdentifierAt (i : Uuid) (v : Option EntityIdentifier) (r : RepointedReference) :
    Option EntityIdentifier :=
  if r.table = "entity_identifiers" ∧ r.rowId = i then
    v.map fun a => { a with entityId := r.previousValue }
  else v

def restoreExtractionAt (i : Uuid) (v : Option EntityExtraction) (r : RepointedReference) :
    Option EntityExtraction :=
  if r.table = "entity_extractions" ∧ r.rowId = i then
    v.map fun a => { a with entityId := r.previousValue }
  else v

@[simp]
theorem restoreColumn_id {r : RepointedReference} {now : Timestamp} {row : Relationship} :
    (restoreColumn r now row).id = row.id := by
  unfold restoreColumn; split <;> rfl

-- The effect of a restoration as a whole.
structure Restored (db db' : Store) (r : RepointedReference) (now : Timestamp) : Prop where
  relationships (i) : db'.relationships.get? i = restoreAt now i (db.relationships.get? i) r
  aliases (i)       : db'.entityAliases.get? i = restoreAliasAt i (db.entityAliases.get? i) r
  identifiers (i)   :
    db'.entityIdentifiers.get? i = restoreIdentifierAt i (db.entityIdentifiers.get? i) r
  extractions (i)   :
    db'.entityExtractions.get? i = restoreExtractionAt i (db.entityExtractions.get? i) r
  rest              : db'.withoutReferences = db.withoutReferences
  row               : r.table = "relationships" → (db.relationships.get? r.rowId).isSome

theorem Restores.restored {db db' : Store} {r : RepointedReference} {now : Timestamp}
    {rel : Option Relationship} (h : Restores db r now db' rel) : Restored db db' r now := by
  cases h
  case relationship row ht _ hg hp =>
    have ⟨_, hp⟩ := Store.putRelationship_eq_ok.mp hp
    have hk : row.id = r.rowId := Table.get?_key hg
    constructor <;> simp [hp, ht, hk, restoreAt, restoreAliasAt, restoreIdentifierAt,
      restoreExtractionAt, Tables.withoutReferences]
    case row => simp [hg]
    intro i
    split_ifs <;> simp_all
  case entityAlias row ht _ hg hp =>
    have ⟨_, hp⟩ := Store.putEntityAlias_eq_ok.mp hp
    have hk : row.id = r.rowId := Table.get?_key hg
    constructor <;> simp [hp, ht, hk, restoreAt, restoreAliasAt, restoreIdentifierAt,
      restoreExtractionAt, Tables.withoutReferences]
    intro i
    split_ifs <;> simp_all
  case entityIdentifier row ht _ hg hp =>
    have ⟨_, _, hp⟩ := Store.putEntityIdentifier_eq_ok.mp hp
    have hk : row.id = r.rowId := Table.get?_key hg
    constructor <;> simp [hp, ht, hk, restoreAt, restoreAliasAt, restoreIdentifierAt,
      restoreExtractionAt, Tables.withoutReferences]
    intro i
    split_ifs <;> simp_all
  case entityExtraction row ht _ hg hp =>
    have ⟨_, hp⟩ := Store.putEntityExtraction_eq_ok.mp hp
    have hk : row.id = r.rowId := Table.get?_key hg
    constructor <;> simp [hp, ht, hk, restoreAt, restoreAliasAt, restoreIdentifierAt,
      restoreExtractionAt, Tables.withoutReferences]
    intro i
    split_ifs <;> simp_all

-- The effect of rebuilding a deleted relationship on the relationship with the id `i`.
def unmergeAt (now : Timestamp) (i : Uuid) (v : Option Relationship) (mr : MergedRelationship) :
    Option Relationship :=
  let v := if mr.absorbedSnapshot.id = i then some mr.absorbedSnapshot else v
  match mr.absorberRelationshipId, mr.absorberPreMerge with
  | some b, some pre => if b = i then v.map (Undo.restoredTo · pre now) else v
  | _, _             => v

def unmergeEvidenceAt (i : Uuid) (v : Option RelationshipEvidence) (mr : MergedRelationship) :
    Option RelationshipEvidence :=
  if mr.absorberRelationshipId.isSome ∧ i ∈ mr.movedEvidenceIds then
    v.map (moveTo mr.absorbedRelationshipId)
  else v

@[simp]
theorem isSome_restoreAt {now : Timestamp} {i : Uuid} {v : Option Relationship}
    {r : RepointedReference} : (restoreAt now i v r).isSome = v.isSome := by
  unfold restoreAt; split_ifs <;> simp

@[simp]
theorem isSome_unmergeEvidenceAt {i : Uuid} {v : Option RelationshipEvidence}
    {mr : MergedRelationship} : (unmergeEvidenceAt i v mr).isSome = v.isSome := by
  unfold unmergeEvidenceAt; split_ifs <;> simp

theorem isSome_unmergeAt {now : Timestamp} {i : Uuid} {v : Option Relationship}
    {mr : MergedRelationship} (h : v.isSome) : (unmergeAt now i v mr).isSome := by
  simp only [unmergeAt]
  split
  all_goals split_ifs <;> simp [h]

structure Unmerged (db db' : Store) (mr : MergedRelationship) (now : Timestamp) : Prop where
  relationships (i) : db'.relationships.get? i = unmergeAt now i (db.relationships.get? i) mr
  evidence (i) :
    db'.relationshipEvidence.get? i = unmergeEvidenceAt i (db.relationshipEvidence.get? i) mr
  rest     : db'.withoutRelationships = db.withoutRelationships
  absorber : ∀ b ∈ mr.absorberRelationshipId, (db'.relationships.get? b).isSome
  moved    : mr.absorberRelationshipId.isSome → ∀ e ∈ mr.movedEvidenceIds,
    (db.relationshipEvidence.get? e).isSome

namespace Undo

theorem returnEvidence_foldlM {a : RelationshipId} {ids : List RelationshipEvidenceId}
    {db db' : Store} (h : ids.foldlM (returnEvidence a) db = .ok db') :
    (∃ t : Table RelationshipEvidence,
      db'.toTables = { db.toTables with relationshipEvidence := t } ∧
      ∀ i, t.get? i = if i ∈ ids then (db.relationshipEvidence.get? i).map (moveTo a)
        else db.relationshipEvidence.get? i) ∧
    ∀ i ∈ ids, (db.relationshipEvidence.get? i).isSome := by
  induction ids generalizing db
  case nil => cases h; exact ⟨⟨_, rfl, by simp⟩, by simp⟩
  case cons id ids hi =>
    simp only [List.foldlM_cons, returnEvidence, bind_eq_ok, orThrow_eq_ok, storage_eq_ok,
      Store.putRelationshipEvidence_eq_ok] at h
    obtain ⟨db₁, ⟨e, he, _, _, h₁⟩, h⟩ := h
    obtain ⟨⟨t, ht, hv⟩, hs⟩ := hi h
    obtain rfl : e.id = id := Table.get?_key he
    have he : db.relationshipEvidence.get? e.id = some e := he
    have hput (i : Uuid) : db₁.relationshipEvidence.get? i =
        if e.id = i then some (moveTo a e) else db.relationshipEvidence.get? i := by
      simp only [h₁, Table.get?_put]
      rfl
    refine ⟨⟨t, by rw [ht, h₁], fun i => ?_⟩, List.forall_mem_cons.mpr ⟨by simp [he], fun i hm => ?_⟩⟩
    · rw [hv, hput]
      by_cases hi : e.id = i
      case pos => subst hi; by_cases hm : e.id ∈ ids <;> simp [hm, he, moveTo]
      case neg => simp [hi, Ne.symm hi]
    · have hm := hs i hm
      rw [hput] at hm
      split_ifs at hm with hi
      · simp [← hi, he]
      · exact hm

theorem unmerge_unmerged {id : MergeHistoryId} {now : Timestamp} {u u' : Undo}
    {mr : MergedRelationship} (h : unmerge id now u mr = .ok u') :
    Unmerged u.fst u'.fst mr now := by
  simp only [unmerge, bind_eq_ok, storage_eq_ok, Store.putRelationship_eq_ok] at h
  obtain ⟨db₁, ⟨_, h₁⟩, h⟩ := h
  split at h
  case h_1 ha =>
    simp only [pure_eq_ok] at h
    subst h
    constructor <;> simp [h₁, ha, unmergeAt, unmergeEvidenceAt, Tables.withoutRelationships]
  case h_2 b hb =>
    simp only [bind_eq_ok, orThrow_eq_ok, storage_eq_ok, pure_eq_ok,
      Store.putRelationship_eq_ok] at h
    obtain ⟨db₂, h₂, r, hr, pre, hpre, db₃, ⟨_, h₃⟩, h⟩ := h
    subst h
    obtain ⟨⟨t, ht, hv⟩, hs⟩ := returnEvidence_foldlM h₂
    obtain rfl : r.id = b := Table.get?_key hr
    have hr : (if mr.absorbedSnapshot.id = r.id then some mr.absorbedSnapshot
        else u.fst.relationships.get? r.id) = some r := by
      simpa [Store.getRelationship, ht, h₁] using hr
    constructor
    case relationships =>
      intro i
      simp only [h₃, ht, h₁, Table.get?_put, unmergeAt, hb, hpre]
      by_cases hi : r.id = i
      case pos => simp only [← hi, hr]; simp [restoredTo]
      case neg => simp [restoredTo, hi]
    case evidence => intro i; simp [h₃, ht, hv, unmergeEvidenceAt, hb, h₁]
    case rest     => simp [Tables.withoutRelationships, h₃, ht, h₁]
    case absorber => simp [hb, h₃, restoredTo]
    case moved    => simpa [h₁, hb] using hs

end Undo

-- What undoing a history writes, table by table.
structure Undone (σ σ' : Store) (h : MergeHistory) (now : Timestamp) : Prop where
  relationships (i) : σ'.relationships.get? i =
    h.mergedRelationships.reverse.foldl (unmergeAt now i)
      (h.repointedReferences.reverse.foldl (restoreAt now i) (σ.relationships.get? i))
  evidence (i) : σ'.relationshipEvidence.get? i =
    h.mergedRelationships.reverse.foldl (unmergeEvidenceAt i) (σ.relationshipEvidence.get? i)
  aliases (i) : σ'.entityAliases.get? i =
    h.repointedReferences.reverse.foldl (restoreAliasAt i) (σ.entityAliases.get? i)
  identifiers (i) : σ'.entityIdentifiers.get? i =
    h.repointedReferences.reverse.foldl (restoreIdentifierAt i) (σ.entityIdentifiers.get? i)
  extractions (i) : σ'.entityExtractions.get? i =
    h.repointedReferences.reverse.foldl (restoreExtractionAt i) (σ.entityExtractions.get? i)
  entities : ∃ e, σ.entities.get? h.mergedId = some e ∧
    σ'.entities = σ.entities.put { e with mergedInto := none }
  mergeHistory    : σ'.mergeHistory = σ.mergeHistory.put { h with undoneAt := some now }
  documents       : σ'.documents = σ.documents
  provenance      : σ'.provenance = σ.provenance
  duplicateGroups : σ'.duplicateGroups = σ.duplicateGroups
  rawEvidence     : σ'.rawEvidence = σ.rawEvidence
  sources         : σ'.sources = σ.sources
  -- The undo has found what it rewrites.
  rows : ∀ r ∈ h.repointedReferences, r.table = "relationships" →
    (σ.relationships.get? r.rowId).isSome
  absorbers : ∀ mr ∈ h.mergedRelationships, ∀ b ∈ mr.absorberRelationshipId,
    (σ'.relationships.get? b).isSome
  moved : ∀ mr ∈ h.mergedRelationships, mr.absorberRelationshipId.isSome →
    ∀ e ∈ mr.movedEvidenceIds, (σ.relationshipEvidence.get? e).isSome

namespace Undo

theorem restore_restored {now : Timestamp} {u u' : Undo} {r : RepointedReference}
    (h : restore now u r = .ok u') : Restored u.fst u'.fst r now := by
  simp only [restore, bind_eq_ok, pure_eq_ok] at h
  obtain ⟨⟨db, rel⟩, h, rfl⟩ := h
  exact restoreReference_eq_ok.mp h |>.restored

section Restore

variable {now : Timestamp} {u u' : Undo} {refs : List RepointedReference}
  (h : refs.foldlM (restore now) u = .ok u')
include h

theorem restore_foldlM_relationships (i : Uuid) : u'.fst.relationships.get? i =
    refs.foldl (restoreAt now i) (u.fst.relationships.get? i) :=
  List.foldlM_view (v := fun u : Undo => u.fst.relationships.get? i) h
    fun _ _ _ _ h => restore_restored h |>.relationships i

theorem restore_foldlM_aliases (i : Uuid) : u'.fst.entityAliases.get? i =
    refs.foldl (restoreAliasAt i) (u.fst.entityAliases.get? i) :=
  List.foldlM_view (v := fun u : Undo => u.fst.entityAliases.get? i) h
    fun _ _ _ _ h => restore_restored h |>.aliases i

theorem restore_foldlM_identifiers (i : Uuid) : u'.fst.entityIdentifiers.get? i =
    refs.foldl (restoreIdentifierAt i) (u.fst.entityIdentifiers.get? i) :=
  List.foldlM_view (v := fun u : Undo => u.fst.entityIdentifiers.get? i) h
    fun _ _ _ _ h => restore_restored h |>.identifiers i

theorem restore_foldlM_extractions (i : Uuid) : u'.fst.entityExtractions.get? i =
    refs.foldl (restoreExtractionAt i) (u.fst.entityExtractions.get? i) :=
  List.foldlM_view (v := fun u : Undo => u.fst.entityExtractions.get? i) h
    fun _ _ _ _ h => restore_restored h |>.extractions i

theorem restore_foldlM_rows {r : RepointedReference} (hr : r ∈ refs) (ht : r.table = "relationships") :
    (u.fst.relationships.get? r.rowId).isSome := by
  induction refs generalizing u
  case nil => cases hr
  case cons r' refs hi =>
    simp only [List.foldlM_cons, bind_eq_ok] at h
    obtain ⟨u₁, h₁, h⟩ := h
    have h₁ := restore_restored h₁
    obtain rfl | hr := List.mem_cons.mp hr
    case inl => exact h₁.row ht
    case inr => simpa [h₁.relationships] using hi h hr

theorem restore_foldlM_rest : u'.fst.withoutReferences = u.fst.withoutReferences :=
  List.foldlM_constant (v := fun u : Undo => u.fst.withoutReferences) h
    fun _ _ _ _ h => restore_restored h |>.rest

end Restore

section Unmerge

variable {id : MergeHistoryId} {now : Timestamp} {u u' : Undo} {mrs : List MergedRelationship}
  (h : mrs.foldlM (unmerge id now) u = .ok u')
include h

theorem unmerge_foldlM_relationships (i : Uuid) : u'.fst.relationships.get? i =
    mrs.foldl (unmergeAt now i) (u.fst.relationships.get? i) :=
  List.foldlM_view (v := fun u : Undo => u.fst.relationships.get? i) h
    fun _ _ _ _ h => unmerge_unmerged h |>.relationships i

theorem unmerge_foldlM_evidence (i : Uuid) : u'.fst.relationshipEvidence.get? i =
    mrs.foldl (unmergeEvidenceAt i) (u.fst.relationshipEvidence.get? i) :=
  List.foldlM_view (v := fun u : Undo => u.fst.relationshipEvidence.get? i) h
    fun _ _ _ _ h => unmerge_unmerged h |>.evidence i

theorem unmerge_foldlM_moved {mr : MergedRelationship} (hm : mr ∈ mrs)
    (ha : mr.absorberRelationshipId.isSome) {e : Uuid} (he : e ∈ mr.movedEvidenceIds) :
    (u.fst.relationshipEvidence.get? e).isSome := by
  induction mrs generalizing u
  case nil => cases hm
  case cons mr' mrs hi =>
    simp only [List.foldlM_cons, bind_eq_ok] at h
    obtain ⟨u₁, h₁, h⟩ := h
    have h₁ := unmerge_unmerged h₁
    obtain rfl | hm := List.mem_cons.mp hm
    case inl => exact h₁.moved ha e he
    case inr => simpa [h₁.evidence] using hi h hm

theorem unmerge_foldlM_absorbers {mr : MergedRelationship} (hm : mr ∈ mrs) {b : Uuid}
    (hb : b ∈ mr.absorberRelationshipId) : (u'.fst.relationships.get? b).isSome := by
  induction mrs generalizing u
  case nil => cases hm
  case cons mr' mrs hi =>
    simp only [List.foldlM_cons, bind_eq_ok] at h
    obtain ⟨u₁, h₁, h₂⟩ := h
    obtain rfl | hm := List.mem_cons.mp hm
    case inl =>
      refine List.foldlM_invariant (P := fun u : Undo => (u.fst.relationships.get? b).isSome) h₂
        (unmerge_unmerged h₁ |>.absorber b hb) fun _ _ _ _ hs h => ?_
      rw [(unmerge_unmerged h).relationships]
      exact isSome_unmergeAt hs
    case inr => exact hi h₂ hm

theorem unmerge_foldlM_rest : u'.fst.withoutRelationships = u.fst.withoutRelationships :=
  List.foldlM_constant (v := fun u : Undo => u.fst.withoutRelationships) h
    fun _ _ _ _ h => unmerge_unmerged h |>.rest

end Unmerge

end Undo

theorem undoInTx_undone {σ σ' : Store} {h : MergeHistory} {now : Timestamp}
    {changes : List RelationshipChange} (hu : undoInTx σ h now = .ok (σ', changes)) :
    Undone σ σ' h now := by
  simp only [undoInTx, bind_eq_ok, pure_eq_ok, storage_eq_ok, orThrow_eq_ok, Store.putEntity_eq_ok,
    Store.putMergeHistory_eq_ok, Prod.mk.injEq] at hu
  obtain ⟨u₁, h₁, u₂, h₂, e, he, db, ⟨-, -, hd⟩, db', ⟨-, hd'⟩, rfl, -⟩ := hu
  have hr₁ := Undo.restore_foldlM_rest h₁
  have hr₂ := Undo.unmerge_foldlM_rest h₂
  simp only [Tables.withoutReferences, Tables.withoutRelationships, Tables.mk.injEq, true_and]
    at hr₁ hr₂
  obtain ⟨hen₁, hev₁, hmh₁, hdo₁, hpr₁, hdu₁, hra₁, hso₁⟩ := hr₁
  obtain ⟨hen₂, hal₂, hid₂, hex₂, hmh₂, hdo₂, hpr₂, hdu₂, hra₂, hso₂⟩ := hr₂
  constructor
  case relationships =>
    intro i
    have hr := Undo.unmerge_foldlM_relationships h₂ i
    rw [Undo.restore_foldlM_relationships h₁ i] at hr
    rw [hd', hd]
    exact hr
  case evidence =>
    intro i
    rw [hd', hd]
    exact Undo.unmerge_foldlM_evidence h₂ i |>.trans <| by rw [hev₁]
  case aliases =>
    intro i
    rw [hd', hd, hal₂]
    exact Undo.restore_foldlM_aliases h₁ i
  case identifiers =>
    intro i
    rw [hd', hd, hid₂]
    exact Undo.restore_foldlM_identifiers h₁ i
  case extractions =>
    intro i
    rw [hd', hd, hex₂]
    exact Undo.restore_foldlM_extractions h₁ i
  case entities =>
    refine ⟨e, ?_, by rw [hd', hd, hen₂, hen₁]⟩
    rwa [Store.getEntity, hen₂, hen₁] at he
  case mergeHistory    => rw [hd', hd, hmh₂, hmh₁]
  case documents       => rw [hd', hd, hdo₂, hdo₁]
  case provenance      => rw [hd', hd, hpr₂, hpr₁]
  case duplicateGroups => rw [hd', hd, hdu₂, hdu₁]
  case rawEvidence     => rw [hd', hd, hra₂, hra₁]
  case sources         => rw [hd', hd, hso₂, hso₁]
  case rows => exact fun r hr => Undo.restore_foldlM_rows h₁ (List.mem_reverse.mpr hr)
  case absorbers =>
    intro mr hm b hb
    rw [hd', hd]
    exact Undo.unmerge_foldlM_absorbers h₂ (List.mem_reverse.mpr hm) hb
  case moved =>
    intro mr hm ha e he
    exact hev₁ ▸ Undo.unmerge_foldlM_moved h₂ (List.mem_reverse.mpr hm) ha he

theorem undoMerge_eq_ok {σ : Store} {id : MergeHistoryId} {now : Timestamp}
    {x : Store × List RelationshipChange} :
    undoMerge σ id now = .ok x ↔ ∃ h survivor merged, σ.mergeHistory.get? id = some h ∧
      h.undoneAt = none ∧ σ.entities.get? h.survivorId = some survivor ∧
      survivor.mergedInto = none ∧ σ.entities.get? h.mergedId = some merged ∧
      undoInTx σ h now = .ok x := by
  simp only [undoMerge, bind_eq_ok, orThrow_eq_ok, Store.getMergeHistory]
  refine exists_congr fun h => ?_
  cases hu : h.undoneAt
  case some => simp
  case none =>
    simp only [requireEntity, bind_eq_ok, orThrow_eq_ok, Store.getEntity]
    constructor
    case mp =>
      intro ⟨hh, s, hs, h⟩
      split at h
      case h_1 => simp at h
      case h_2 hm =>
        have ⟨m, hg, h⟩ := bind_eq_ok.mp h
        exact ⟨s, m, hh, trivial, hs, hm, orThrow_eq_ok.mp hg, h⟩
    case mpr =>
      intro ⟨s, m, hh, _, hs, hsm, hm, h⟩
      refine ⟨hh, s, hs, ?_⟩
      simp [hsm, hm, orThrow, h]

end Merge
