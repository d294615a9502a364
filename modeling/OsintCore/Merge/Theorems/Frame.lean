import OsintCore.Control.Changelog
import OsintCore.Merge.Theorems.Undo
import OsintCore.Merge.Undo

open Except (bind_eq_ok map_eq_ok pure_eq_ok)

namespace Merge

-- A change tells what has become of the relationship it names.
def RelationshipChange.Shows (c : RelationshipChange) : Option Relationship → Prop
  | none   => c.changeKind = .deleted
  | some r => c = .fromRelationship r .upserted

def lastChange (changes : List RelationshipChange) (i : RelationshipId) :
    Option RelationshipChange :=
  (changes.filter (·.relationshipId = i)).getLast?

-- The relationships of a store, and the changes which are going to be published.
def announcements :
    Changelog (Store × List RelationshipChange) RelationshipId Relationship RelationshipChange where
  read u := u.fst.relationships.get?
  log    := Prod.snd
  key    := RelationshipChange.relationshipId
  shows  := RelationshipChange.Shows

section Announcements

variable {db db' : Store} {changes : List RelationshipChange} {rel : Relationship}

theorem announces_delete
    (h : ∀ i, db'.relationships.get? i = if rel.id = i then none else db.relationships.get? i) :
    announcements.Extends (db, changes) (db', changes ++ [.fromRelationship rel .deleted])
      [rel.id] := by
  apply Changelog.Extends.write
  case hl => rfl
  case hi => rfl
  case hr => exact fun i hi => (h i).trans <| if_neg hi
  case hs =>
    have hn : announcements.read (db', changes ++ [.fromRelationship rel .deleted]) rel.id = none :=
      (h rel.id).trans <| if_pos rfl
    rw [hn]
    rfl

theorem announces_put
    (h : ∀ i, db'.relationships.get? i = if rel.id = i then some rel else db.relationships.get? i) :
    announcements.Extends (db, changes) (db', changes ++ [.fromRelationship rel .upserted])
      [rel.id] := by
  apply Changelog.Extends.write
  case hl => rfl
  case hi => rfl
  case hr => exact fun i hi => (h i).trans <| if_neg hi
  case hs =>
    have hp : announcements.read (db', changes ++ [.fromRelationship rel .upserted]) rel.id =
        some rel := (h rel.id).trans <| if_pos rfl
    rw [hp]
    rfl

theorem announces_nothing (h : db'.relationships = db.relationships) :
    announcements.Extends (db, changes) (db', changes) [] :=
  .silent rfl <| congrArg Table.get? h

end Announcements

namespace Tx

-- What a merge has announced so far
def announced (tx : Tx) : Store × List RelationshipChange :=
  (tx.db, tx.changes)

variable {tx tx' : Tx} {m s : EntityId} {now : Timestamp}

theorem deleteSelfLoop_announces {rel : Relationship} :
    announcements.Extends tx.announced (deleteSelfLoop tx rel).announced [rel.id] :=
  announces_delete fun _ => deleteSelfLoop_relationships

theorem foldl_deleteSelfLoop_announces (tx : Tx) (rels : List Relationship) :
    announcements.Extends tx.announced (rels.foldl deleteSelfLoop tx).announced
      (rels.flatMap fun rel => [rel.id]) :=
  Changelog.Extends.foldl fun _ _ _ => deleteSelfLoop_announces

theorem absorbCollision_announces {c : Collision} (hne : c.absorber.id ≠ c.absorbed.id)
    (h : absorbCollision now tx c = .ok tx') :
    announcements.Extends tx.announced tx'.announced [c.absorbed.id, c.absorber.id] := by
  have hr (i : Uuid) := absorbCollision_relationships (i := i) h
  have hc : tx'.changes = tx.changes ++ [.fromRelationship c.absorbed .deleted] ++
      [.fromRelationship (absorbedInto c.absorbed c.absorber now) .upserted] := by
    simp only [absorbCollision, bind_eq_ok, pure_eq_ok] at h
    obtain ⟨_, _, _, _, _, _, h⟩ := h
    simp [← h]
  have he (i : Uuid) : (tx.db.deleteRelationship c.absorbed.id).relationships.get? i =
      if c.absorbed.id = i then none else tx.db.relationships.get? i :=
    tx.db.relationships.get?_erase c.absorbed.id i
  have hd : announcements.Extends tx.announced (tx.db.deleteRelationship c.absorbed.id,
      tx.changes ++ [.fromRelationship c.absorbed .deleted]) [c.absorbed.id] :=
    announces_delete he
  simp only [announced, hc]
  refine hd.trans <| announces_put fun i => ?_
  rw [hr, he, absorbedInto_id]
  by_cases hi : c.absorbed.id = i
  case pos => rw [if_pos hi, if_neg fun hb => hne <| hb.trans hi.symm, if_pos hi]
  case neg => rw [if_neg hi, if_neg hi]

theorem repointRelationship_announces {rel : Relationship}
    (h : repointRelationship m s now tx rel = .ok tx') :
    announcements.Extends tx.announced tx'.announced [rel.id] := by
  obtain ⟨_, _, ht⟩ := repointRelationship_repoints.step h
  have hc : tx'.changes = tx.changes ++
      [.fromRelationship (repointedRow m s now rel) .upserted] := by
    simp only [repointRelationship, bind_eq_ok, pure_eq_ok] at h
    obtain ⟨_, _, _, _, h⟩ := h
    exact h ▸ rfl
  simp only [announced, hc]
  exact announces_put fun i => ht ▸ tx.db.relationships.get?_put _ i

-- The loops over the other tables announce nothing.
theorem Repoints.announces_nothing {α γ : Type} {body : Tx → α → Except MergeError Tx}
    {ref : α → List RepointedReference} {p : Tables → γ} {q : Tables → γ → Tables} {u : γ → α → γ}
    {a : α} (hr : Repoints body ref p q u) (hq : ∀ t c, (q t c).relationships = t.relationships)
    (h : body tx a = .ok tx') (hc : tx'.changes = tx.changes) :
    announcements.Extends tx.announced tx'.announced [] := by
  have ⟨_, _, ht⟩ := hr.step h
  simp only [announced, hc]
  exact Merge.announces_nothing <| congrArg Tables.relationships ht |>.trans <| hq _ _

theorem repointAlias_announces {a : EntityAlias} (h : repointAlias m s tx a = .ok tx') :
    announcements.Extends tx.announced tx'.announced [] := by
  apply repointAlias_repoints.announces_nothing (fun _ _ => rfl) h
  simp only [repointAlias, bind_eq_ok, pure_eq_ok] at h
  obtain ⟨_, _, h⟩ := h
  exact h ▸ rfl

theorem repointIdentifier_announces {a : EntityIdentifier}
    (h : repointIdentifier m s tx a = .ok tx') :
    announcements.Extends tx.announced tx'.announced [] := by
  apply repointIdentifier_repoints.announces_nothing (fun _ _ => rfl) h
  simp only [repointIdentifier, bind_eq_ok, pure_eq_ok] at h
  obtain ⟨_, _, h⟩ := h
  exact h ▸ rfl

theorem repointExtraction_announces {a : EntityExtraction}
    (h : repointExtraction m s tx a = .ok tx') :
    announcements.Extends tx.announced tx'.announced [] := by
  apply repointExtraction_repoints.announces_nothing (fun _ _ => rfl) h
  simp only [repointExtraction, bind_eq_ok, pure_eq_ok] at h
  obtain ⟨_, _, h⟩ := h
  exact h ▸ rfl

end Tx

-- The ids of the relationships which a merge announces, in the order of its loops
def mergedIds (c : Classified) : List RelationshipId :=
  c.selfLoops.map (·.id) ++ c.collisions.flatMap (fun c => [c.absorbed.id, c.absorber.id]) ++
    c.safeRepoints.map (·.id)

theorem executeInTx_announces {σ σ' : Store} {survivor merged : Entity} {ctx : Context}
    {h : MergeHistory} {changes : List RelationshipChange} (hne : merged.id ≠ survivor.id)
    (he : executeInTx σ survivor merged ctx = .ok (σ', h, changes)) :
    announcements.Extends (σ, []) (σ', changes)
      (mergedIds <| classified σ merged.id survivor.id) := by
  have hc := executeInTx_executed hne he |>.complete
  simp only [executeInTx, bind_eq_ok, pure_eq_ok, storage_eq_ok, rejectTruncated_eq_ok,
    Store.putEntity_eq_ok, Store.putMergeHistory_eq_ok] at he
  obtain ⟨_, ⟨_, hm⟩, _, ⟨_, hs⟩, _, _, _, _, _, _, tx₂, h₂, tx₃, h₃, tx₄, h₄, tx₅, h₅, tx₆, h₆, db,
    ⟨-, -, hd⟩, db', ⟨-, hd'⟩, he⟩ := he
  subst hm hs
  obtain ⟨rfl, -, rfl⟩ : db' = σ' ∧ _ ∧ tx₆.changes = changes := by simpa using he
  have e₁ := Tx.foldl_deleteSelfLoop_announces { db := σ }
    (classified σ merged.id survivor.id).selfLoops
  have e₂ := Changelog.Extends.foldlM (v := Tx.announced) h₂ fun _ _ c hm h =>
    Tx.absorbCollision_announces (hc.independent hne |>.absorber c hm c hm) h
  have e₃ := Changelog.Extends.foldlM (v := Tx.announced) h₃ fun _ _ _ _ h =>
    Tx.repointRelationship_announces h
  have e₄ := Changelog.Extends.foldlM_silent (v := Tx.announced) h₄ fun _ _ _ _ h =>
    Tx.repointAlias_announces h
  have e₅ := Changelog.Extends.foldlM_silent (v := Tx.announced) h₅ fun _ _ _ _ h =>
    Tx.repointIdentifier_announces h
  have e₆ := Changelog.Extends.foldlM_silent (v := Tx.announced) h₆ fun _ _ _ _ h =>
    Tx.repointExtraction_announces h
  have e₇ : announcements.Extends tx₆.announced (db', tx₆.changes) [] :=
    announces_nothing <| by rw [hd', hd]
  have e := e₁.trans e₂ |>.trans e₃ |>.trans e₄ |>.trans e₅ |>.trans e₆ |>.trans e₇
  simpa [mergedIds, classified, List.map_eq_flatMap, Tx.announced] using e

theorem Complete.mem_mergedIds {σ : Store} {m s : EntityId} (hc : Complete σ m s) (hne : m ≠ s)
    {i : RelationshipId} : i ∈ mergedIds (classified σ m s) ↔
      ∃ r ∈ σ.relationships, r.id = i ∧ fate σ.relationships m s r ≠ .kept := by
  simp only [mergedIds, List.mem_append, List.mem_map, List.mem_flatMap, hc.mem_selfLoops,
    hc.mem_collisions, hc.mem_safeRepoints]
  constructor
  case mp =>
    rintro ((⟨r, ⟨hm, hf⟩, hi⟩ | ⟨c, ⟨hm, hf⟩, hi⟩) | ⟨r, ⟨hm, hf⟩, hi⟩)
    case inl.inl => exact ⟨r, hm, hi, by simp [hf]⟩
    case inr     => exact ⟨r, hm, hi, by simp [hf]⟩
    case inl.inr =>
      obtain ⟨hb, ha⟩ := fate_absorbs_of_absorbed σ.relationship_natural hne hm hf
      simp only [List.mem_cons, List.not_mem_nil, or_false] at hi
      cases hi
      case inl hi => exact ⟨c.absorbed, hm, hi.symm, by simp [hf]⟩
      case inr hi => exact ⟨c.absorber, hb, hi.symm, by simp [ha]⟩
  case mpr =>
    rintro ⟨r, hm, hi, hk⟩
    cases hf : fate σ.relationships m s r
    case kept       => exact absurd hf hk
    case selfLoop   => exact .inl <| .inl ⟨r, ⟨hm, hf⟩, hi⟩
    case repointed  => exact .inr ⟨r, ⟨hm, hf⟩, hi⟩
    case absorbed b => exact .inl <| .inr ⟨⟨r, b⟩, ⟨hm, hf⟩, by simp [hi]⟩
    case absorbs a  =>
      obtain ⟨ha, hf⟩ := fate_absorbed_of_absorbs σ.relationship_natural hne hm hf
      exact .inl <| .inr ⟨⟨a, r⟩, ⟨ha, hf⟩, by simp [hi]⟩

namespace Undo

variable {u u' : Undo} {now : Timestamp}

-- The relationship which the restoration of a reference writes.
def restoredId (r : RepointedReference) : List RelationshipId :=
  if r.table = "relationships" then [r.rowId] else []

theorem restore_announces {r : RepointedReference} (h : restore now u r = .ok u') :
    announcements.Extends u u' (restoredId r) := by
  simp only [restore, bind_eq_ok, pure_eq_ok] at h
  obtain ⟨⟨db, rel⟩, h, rfl⟩ := h
  have hr := restoreReference_eq_ok.mp h
  cases hr
  case relationship row ht _ hg hp =>
    obtain ⟨_, hp⟩ := Store.putRelationship_eq_ok.mp hp
    have hk : (restoreColumn r now row).id = r.rowId := restoreColumn_id.trans <| Table.get?_key hg
    simp only [restoredId, ht, if_true, ← hk]
    exact announces_put fun i => hp ▸ Table.get?_put _ _ i
  case entityAlias ht _ _ hp =>
    obtain ⟨_, hp⟩ := Store.putEntityAlias_eq_ok.mp hp
    simp only [restoredId, ht, Option.map_none, Option.toList_none, List.append_nil]
    exact announces_nothing <| by rw [hp]
  case entityIdentifier ht _ _ hp =>
    obtain ⟨_, _, hp⟩ := Store.putEntityIdentifier_eq_ok.mp hp
    simp only [restoredId, ht, Option.map_none, Option.toList_none, List.append_nil]
    exact announces_nothing <| by rw [hp]
  case entityExtraction ht _ _ hp =>
    obtain ⟨_, hp⟩ := Store.putEntityExtraction_eq_ok.mp hp
    simp only [restoredId, ht, Option.map_none, Option.toList_none, List.append_nil]
    exact announces_nothing <| by rw [hp]

def unmergedIds (mr : MergedRelationship) : List RelationshipId :=
  mr.absorbedSnapshot.id :: mr.absorberRelationshipId.toList

theorem unmerge_announces {id : MergeHistoryId} {mr : MergedRelationship}
    (h : unmerge id now u mr = .ok u') : announcements.Extends u u' (unmergedIds mr) := by
  simp only [unmerge, bind_eq_ok, storage_eq_ok, Store.putRelationship_eq_ok] at h
  obtain ⟨db₁, ⟨_, h₁⟩, h⟩ := h
  have e₁ : announcements.Extends u
      (db₁, u.snd ++ [.fromRelationship mr.absorbedSnapshot .upserted]) [mr.absorbedSnapshot.id] :=
    announces_put fun i => h₁ ▸ Table.get?_put _ _ i
  split at h
  case h_1 ha =>
    simp only [pure_eq_ok] at h
    simpa [unmergedIds, ha, ← h] using e₁
  case h_2 b hb =>
    simp only [bind_eq_ok, orThrow_eq_ok, storage_eq_ok, pure_eq_ok,
      Store.putRelationship_eq_ok] at h
    obtain ⟨db₂, h₂, r, hr, pre, -, db₃, ⟨-, h₃⟩, rfl⟩ := h
    obtain ⟨⟨t, ht, _⟩, _⟩ := returnEvidence_foldlM h₂
    obtain rfl : (restoredTo r pre now).id = b := Table.get?_key hr
    have e₂ : announcements.Extends
        (db₁, u.snd ++ [.fromRelationship mr.absorbedSnapshot .upserted])
        (db₂, u.snd ++ [.fromRelationship mr.absorbedSnapshot .upserted]) [] :=
      announces_nothing <| by rw [ht]
    have e₃ : announcements.Extends
        (db₂, u.snd ++ [.fromRelationship mr.absorbedSnapshot .upserted])
        (db₃, u.snd ++ [.fromRelationship mr.absorbedSnapshot .upserted] ++
          [.fromRelationship (restoredTo r pre now) .upserted]) [(restoredTo r pre now).id] :=
      announces_put fun i => h₃ ▸ Table.get?_put _ _ i
    simpa [unmergedIds, hb] using e₁.trans e₂ |>.trans e₃

end Undo

theorem undoInTx_announces {σ σ' : Store} {h : MergeHistory} {now : Timestamp}
    {changes : List RelationshipChange} (hu : undoInTx σ h now = .ok (σ', changes)) :
    announcements.Extends (σ, []) (σ', changes)
      (h.repointedReferences.reverse.flatMap Undo.restoredId ++
        h.mergedRelationships.reverse.flatMap Undo.unmergedIds) := by
  simp only [undoInTx, bind_eq_ok, pure_eq_ok, storage_eq_ok, orThrow_eq_ok, Store.putEntity_eq_ok,
    Store.putMergeHistory_eq_ok, Prod.mk.injEq] at hu
  obtain ⟨u₁, h₁, u₂, h₂, e, he, db, ⟨-, -, hd⟩, db', ⟨-, hd'⟩, rfl, rfl⟩ := hu
  have e₁ := Changelog.Extends.foldlM (v := id) h₁ fun _ _ _ _ h => Undo.restore_announces h
  have e₂ := Changelog.Extends.foldlM (v := id) h₂ fun _ _ _ _ h => Undo.unmerge_announces h
  have e₃ : announcements.Extends u₂ (db', u₂.snd) [] := announces_nothing <| by rw [hd', hd]
  simpa using e₁.trans e₂ |>.trans e₃

-- What an operation may touch, row by row.
structure Scope where
  relationships : RelationshipId → Prop
  evidence      : RelationshipEvidenceId → Prop
  aliases       : EntityAliasId → Prop
  identifiers   : EntityIdentifierId → Prop
  extractions   : EntityExtractionId → Prop
  entities      : EntityId → Prop
  -- The evidence which goes with a deleted self-loop
  lost          : RelationshipEvidenceId → Prop
  -- The relationships which are written even if nothing but their time of update changes
  rewritten     : RelationshipId → Prop

-- Some relationship of `m` falls together with the relationship `r` and is absorbed by it.
def IsAbsorber (t : Table Relationship) (m s : EntityId) (r : Relationship) : Prop :=
  ∃ a ∈ t, a.Touches m ∧ ¬BecomesLoop m s a ∧ repointedKey m s a = r.naturalKey

def mergeScope (σ : Store) (m s : EntityId) : Scope where
  relationships i := ∃ r ∈ σ.relationships, r.id = i ∧
    (r.Touches m ∨ IsAbsorber σ.relationships m s r)
  evidence i := ∃ e ∈ σ.relationshipEvidence, e.id = i ∧
    ∃ r ∈ σ.relationships, r.id = e.relationshipId ∧ r.Touches m
  aliases i     := ∃ a ∈ σ.entityAliases, a.id = i ∧ a.entityId = m
  identifiers i := ∃ a ∈ σ.entityIdentifiers, a.id = i ∧ a.entityId = m
  extractions i := ∃ a ∈ σ.entityExtractions, a.id = i ∧ a.entityId = m
  entities i    := i = m
  lost i := ∃ e ∈ σ.relationshipEvidence, e.id = i ∧
    ∃ r ∈ σ.relationships, r.id = e.relationshipId ∧ r.Touches m ∧ BecomesLoop m s r
  rewritten i := ∃ r ∈ σ.relationships, r.id = i ∧ IsAbsorber σ.relationships m s r

def NamesReference (h : MergeHistory) (table : String) (i : Uuid) : Prop :=
  ∃ r ∈ h.repointedReferences, r.table = table ∧ r.rowId = i

def NamesRelationship (h : MergeHistory) (i : RelationshipId) : Prop :=
  NamesReference h "relationships" i ∨
  ∃ mr ∈ h.mergedRelationships, mr.absorbedSnapshot.id = i ∨ mr.absorberRelationshipId = some i

def undoScope (h : MergeHistory) : Scope where
  relationships := NamesRelationship h
  evidence i    := ∃ mr ∈ h.mergedRelationships, i ∈ mr.movedEvidenceIds
  aliases       := NamesReference h "entity_aliases"
  identifiers   := NamesReference h "entity_identifiers"
  extractions   := NamesReference h "entity_extractions"
  entities i    := i = h.mergedId
  lost _        := False
  rewritten     := NamesRelationship h

structure Scope.Frames (S : Scope) (σ σ' : Store) : Prop where
  relationships (i) : ¬S.relationships i → σ'.relationships.get? i = σ.relationships.get? i
  evidence (i) : ¬S.evidence i → σ'.relationshipEvidence.get? i = σ.relationshipEvidence.get? i
  aliases (i) : ¬S.aliases i → σ'.entityAliases.get? i = σ.entityAliases.get? i
  identifiers (i) : ¬S.identifiers i → σ'.entityIdentifiers.get? i = σ.entityIdentifiers.get? i
  extractions (i) : ¬S.extractions i → σ'.entityExtractions.get? i = σ.entityExtractions.get? i
  entities (i) : ¬S.entities i → σ'.entities.get? i = σ.entities.get? i
  -- No row comes or goes.
  kept_evidence (i) : (σ'.relationshipEvidence.get? i).isSome ↔
    (σ.relationshipEvidence.get? i).isSome ∧ ¬S.lost i
  kept_aliases (i) : (σ'.entityAliases.get? i).isSome = (σ.entityAliases.get? i).isSome
  kept_identifiers (i) : (σ'.entityIdentifiers.get? i).isSome = (σ.entityIdentifiers.get? i).isSome
  kept_extractions (i) : (σ'.entityExtractions.get? i).isSome = (σ.entityExtractions.get? i).isSome

def withoutUpdatedAt (r : Relationship) : Relationship :=
  { r with updatedAt := 0 }

-- A relationship is created, deleted, or changed in more than its time of update.
def Changed (σ σ' : Store) (i : RelationshipId) : Prop :=
  (σ.relationships.get? i).map withoutUpdatedAt ≠ (σ'.relationships.get? i).map withoutUpdatedAt

structure Scope.Announced (S : Scope) (σ σ' : Store) (changes : List RelationshipChange) :
    Prop where
  named (i) : i ∈ changes.map (·.relationshipId) ↔ Changed σ σ' i ∨ S.rewritten i
  last (i)  : ∀ c ∈ lastChange changes i, c.Shows (σ'.relationships.get? i)

theorem Scope.announced_of_extends {S : Scope} {σ σ' : Store} {changes : List RelationshipChange}
    {ids : List RelationshipId} (h : announcements.Extends (σ, []) (σ', changes) ids)
    (hs : ∀ i, i ∈ ids → Changed σ σ' i ∨ S.rewritten i) (hr : ∀ i, S.rewritten i → i ∈ ids) :
    S.Announced σ σ' changes := by
  have ⟨new, h⟩ := h
  obtain rfl : changes = new := h.log
  have hk : changes.map (·.relationshipId) = ids := h.keys
  refine ⟨fun i => ⟨fun hi => hs i (hk ▸ hi), fun hi => ?named⟩, h.last⟩
  cases hi
  case inr hi => exact hk ▸ hr i hi
  case inl hi =>
    by_contra hn
    exact hi <| congrArg _ (h.unnamed i <| hk ▸ hn).symm

section Execute

variable {σ σ' : Store} {survivor merged : Entity} {ctx : Context} {h : MergeHistory}

theorem fate_ne_kept {t : Table Relationship} {m s : EntityId} {r : Relationship} :
    fate t m s r ≠ .kept ↔ r.Touches m ∨ IsAbsorber t m s r := by
  simp only [ne_eq, fate_eq_kept, IsAbsorber]
  grind

theorem mergedEvidence_of_not_touches {σ : Store} {m s : EntityId} {e : RelationshipEvidence}
    (h : ∀ r ∈ σ.relationships, r.id = e.relationshipId → ¬r.Touches m) :
    mergedEvidence σ.relationships m s e = some e := by
  unfold mergedEvidence
  cases hr : σ.relationships.get? e.relationshipId
  case none => rfl
  case some r =>
    have ht := h r (Table.get?_mem hr) (Table.get?_key hr)
    rcases fate_of_not_touches (t := σ.relationships) (s := s) ht with hf | ⟨_, hf⟩ <;>
      simp [hf]

theorem isSome_mergedEvidence {t : Table Relationship} {m s : EntityId} {e : RelationshipEvidence} :
    (mergedEvidence t m s e).isSome ↔
      ∀ r, t.get? e.relationshipId = some r → fate t m s r ≠ .selfLoop := by
  unfold mergedEvidence
  cases t.get? e.relationshipId
  case none => simp
  case some r => cases hf : fate t m s r <;> simp [hf]

theorem get?_repointed_eq {α : Type} [Keyed α Uuid] {t t' : Table α} {p : α → Prop}
    [DecidablePred p] {f : α → α}
    (h : ∀ i, t'.get? i = (t.get? i).map fun a => if p a then f a else a)
    {i : Uuid} (hn : ¬∃ a ∈ t, Keyed.key a = i ∧ p a) : t'.get? i = t.get? i := by
  rw [h]
  cases ha : t.get? i
  case none   => rfl
  case some a =>
    have hp : ¬p a := fun hp => hn ⟨a, Table.get?_mem ha, Table.get?_key ha, hp⟩
    simp [hp]

theorem Executed.frames (he : Executed σ σ' survivor merged ctx h) :
    (mergeScope σ merged.id survivor.id).Frames σ σ' := by
  constructor
  case relationships =>
    intro i hn
    rw [he.relationships]
    cases hr : σ.relationships.get? i
    case none   => rfl
    case some r =>
      have hk : fate σ.relationships merged.id survivor.id r = .kept := by
        by_contra hk
        exact hn ⟨r, Table.get?_mem hr, Table.get?_key hr, fate_ne_kept.mp hk⟩
      simp [mergedRelationship, hk]
  case evidence =>
    intro i hn
    rw [he.evidence]
    cases hg : σ.relationshipEvidence.get? i
    case none   => rfl
    case some e =>
      exact mergedEvidence_of_not_touches fun r hr hi ht =>
        hn ⟨e, Table.get?_mem hg, Table.get?_key hg, r, hr, hi, ht⟩
  case aliases          => exact fun i => get?_repointed_eq he.aliases
  case identifiers      => exact fun i => get?_repointed_eq he.identifiers
  case extractions      => exact fun i => get?_repointed_eq he.extractions
  case kept_aliases     => exact fun i => by rw [he.aliases, Option.isSome_map]
  case kept_identifiers => exact fun i => by rw [he.identifiers, Option.isSome_map]
  case kept_extractions => exact fun i => by rw [he.extractions, Option.isSome_map]
  case entities =>
    intro i hn
    rw [he.entities, Table.get?_put, if_neg fun hi => hn hi.symm]
  case kept_evidence =>
    intro i
    rw [he.evidence]
    cases hg : σ.relationshipEvidence.get? i
    case none   => simp
    case some e =>
      simp only [Option.bind_some, isSome_mergedEvidence, Option.isSome_some, true_and, ne_eq,
        fate_eq_selfLoop]
      constructor
      case mp =>
        rintro hl ⟨e', hm, hi, r, hr, hre, ht⟩
        obtain rfl : e = e' := Option.some.inj <| hg.symm.trans <| Table.get?_eq_some.mpr ⟨hm, hi⟩
        exact hl r (Table.get?_eq_some.mpr ⟨hr, hre⟩) ht
      case mpr =>
        exact fun hl r hr ht => hl ⟨e, Table.get?_mem hg, Table.get?_key hg, r, Table.get?_mem hr,
          Table.get?_key hr, ht⟩

theorem repointedRow_changed {m s : EntityId} {now : Timestamp} {r : Relationship}
    (ht : r.Touches m) (hne : m ≠ s) : withoutUpdatedAt r ≠ withoutUpdatedAt (repointedRow m s now r) := by
  intro h
  have hs := congrArg Relationship.sourceObjectId h
  have hd := congrArg Relationship.targetObjectId h
  simp only [withoutUpdatedAt, repointedRow, repointedEnds] at hs hd
  simp only [Relationship.Touches] at ht
  grind

theorem Executed.announced {changes : List RelationshipChange}
    (he : Executed σ σ' survivor merged ctx h) (hne : merged.id ≠ survivor.id)
    (ha : announcements.Extends (σ, []) (σ', changes)
      (mergedIds <| classified σ merged.id survivor.id)) :
    (mergeScope σ merged.id survivor.id).Announced σ σ' changes := by
  apply Scope.announced_of_extends ha
  case hs =>
    intro i hi
    obtain ⟨r, hm, hi, hk⟩ := he.complete.mem_mergedIds hne |>.mp hi
    have hr : σ.relationships.get? i = some r := Table.get?_eq_some.mpr ⟨hm, hi⟩
    have hr' : σ'.relationships.get? i =
        mergedRelationship σ.relationships merged.id survivor.id ctx.now r := by
      rw [he.relationships, hr, Option.bind_some]
    cases fate_ne_kept.mp hk
    case inr ha => exact .inr ⟨r, hm, hi, ha⟩
    case inl ht =>
      left
      rw [Changed, hr, hr', mergedRelationship]
      cases hf : fate σ.relationships merged.id survivor.id r
      case kept      => exact absurd hf hk
      case repointed => simpa using repointedRow_changed ht hne
      case absorbs   => exact absurd ht (fate_eq_absorbs σ.relationship_natural |>.mp hf).left
      all_goals simp
  case hr =>
    rintro i ⟨r, hm, hi, ha⟩
    exact he.complete.mem_mergedIds hne |>.mpr ⟨r, hm, hi, fate_ne_kept.mpr <| .inr ha⟩

end Execute

section Undo

variable {σ σ' : Store} {h : MergeHistory} {now : Timestamp}

theorem Undone.frames (hu : Undone σ σ' h now) : (undoScope h).Frames σ σ' := by
  have hn {table : String} {i : Uuid} (hn : ¬NamesReference h table i) {r : RepointedReference}
      (hr : r ∈ h.repointedReferences.reverse) : ¬(r.table = table ∧ r.rowId = i) :=
    fun h => hn ⟨r, List.mem_reverse.mp hr, h.left, h.right⟩
  constructor
  case relationships =>
    intro i hi
    obtain ⟨hr, hm⟩ := not_or.mp hi
    have h₁ : h.repointedReferences.reverse.foldl (restoreAt now i) (σ.relationships.get? i) =
        σ.relationships.get? i := List.foldl_skip fun r h => if_neg <| hn hr h
    have h₂ : h.mergedRelationships.reverse.foldl (unmergeAt now i) (σ.relationships.get? i) =
        σ.relationships.get? i := by
      refine List.foldl_skip fun mr hmr => ?_
      have hne : ¬(mr.absorbedSnapshot.id = i ∨ mr.absorberRelationshipId = some i) :=
        fun hne => hm ⟨mr, List.mem_reverse.mp hmr, hne⟩
      obtain ⟨hs, ha⟩ := not_or.mp hne
      simp only [unmergeAt, if_neg hs]
      split
      case h_1 hb _ =>
        rw [hb, Option.some.injEq] at ha
        exact if_neg ha
      case h_2 => rfl
    rw [hu.relationships, h₁, h₂]
  case evidence =>
    intro i hi
    rw [hu.evidence]
    exact List.foldl_skip fun mr hmr => if_neg fun hm => hi ⟨mr, List.mem_reverse.mp hmr, hm.right⟩
  case aliases =>
    exact fun i hi => hu.aliases i |>.trans <| List.foldl_skip fun r h => if_neg <| hn hi h
  case identifiers =>
    exact fun i hi => hu.identifiers i |>.trans <| List.foldl_skip fun r h => if_neg <| hn hi h
  case extractions =>
    exact fun i hi => hu.extractions i |>.trans <| List.foldl_skip fun r h => if_neg <| hn hi h
  case entities =>
    intro i hi
    obtain ⟨e, he, h'⟩ := hu.entities
    have hk : e.id = h.mergedId := Table.get?_key he
    rw [h', Table.get?_put]
    exact if_neg fun hei => hi <| hei.symm.trans hk
  case kept_evidence =>
    intro i
    rw [hu.evidence, List.foldl_constant (v := Option.isSome) fun _ _ _ => isSome_unmergeEvidenceAt]
    exact (and_iff_left id).symm
  case kept_aliases =>
    intro i
    rw [hu.aliases, List.foldl_constant (v := Option.isSome)]
    exact fun v r _ => by unfold restoreAliasAt; split_ifs <;> simp
  case kept_identifiers =>
    intro i
    rw [hu.identifiers, List.foldl_constant (v := Option.isSome)]
    exact fun v r _ => by unfold restoreIdentifierAt; split_ifs <;> simp
  case kept_extractions =>
    intro i
    rw [hu.extractions, List.foldl_constant (v := Option.isSome)]
    exact fun v r _ => by unfold restoreExtractionAt; split_ifs <;> simp

theorem mem_undoneIds {i : RelationshipId} :
    i ∈ h.repointedReferences.reverse.flatMap Undo.restoredId ++
        h.mergedRelationships.reverse.flatMap Undo.unmergedIds ↔ NamesRelationship h i := by
  simp only [NamesRelationship, NamesReference, List.mem_append, List.mem_flatMap,
    List.mem_reverse, Undo.restoredId, Undo.unmergedIds, List.mem_cons, Option.mem_toList]
  refine or_congr (exists_congr fun r => and_congr_right fun _ => ?_)
    (exists_congr fun mr => and_congr_right fun _ => or_congr_left eq_comm)
  split_ifs with ht <;> simp [ht, eq_comm]

theorem undoInTx_announced {changes : List RelationshipChange}
    (hu : undoInTx σ h now = .ok (σ', changes)) : (undoScope h).Announced σ σ' changes :=
  Scope.announced_of_extends (undoInTx_announces hu) (fun _ hi => .inr <| mem_undoneIds.mp hi)
    fun _ hi => mem_undoneIds.mpr hi

end Undo

namespace Op

-- A successful operation, and what it hands to the publisher
def perform (σ : Store) : Op → Except MergeError (Store × List RelationshipChange)
  | .executeMerge survivorId mergedId ctx => do
    let (σ', _, changes) ← executeMergeWithAudit σ survivorId mergedId ctx
    return (σ', changes)
  | .undoMerge id now => Merge.undoMerge σ id now

-- An undo goes by what the history says.
def HasScope (σ : Store) : Op → Scope → Prop
  | .executeMerge survivorId mergedId _, S => S = mergeScope σ mergedId survivorId
  | .undoMerge id _, S => ∃ h, σ.mergeHistory.get? id = some h ∧ S = undoScope h

theorem perform_framed {σ σ' : Store} {op : Op} {changes : List RelationshipChange}
    (h : op.perform σ = .ok (σ', changes)) :
    ∃ S, op.HasScope σ S ∧ S.Frames σ σ' ∧ S.Announced σ σ' changes := by
  cases op
  case executeMerge survivorId mergedId ctx =>
    simp only [perform, bind_eq_ok, pure_eq_ok] at h
    obtain ⟨⟨σ₁, hist, ch⟩, h, he⟩ := h
    cases he
    obtain ⟨survivor, merged, hc, hx⟩ := executeMergeWithAudit_eq_ok.mp h
    have he := executeInTx_executed hc.ids_ne hx
    refine ⟨_, rfl, ?_⟩
    rw [← hc.merged_id, ← hc.survivor_id]
    exact ⟨he.frames, he.announced hc.ids_ne <| executeInTx_announces hc.ids_ne hx⟩
  case undoMerge id now =>
    obtain ⟨hist, _, _, hg, _, _, _, _, hu⟩ := undoMerge_eq_ok.mp h
    exact ⟨undoScope hist, ⟨hist, hg, rfl⟩, (undoInTx_undone hu).frames, undoInTx_announced hu⟩

-- The survivor has the relationship already, and the one it absorbs adds nothing to it.
def uncountedSample : Store := .mk
  { entities      := Sample.threePeople
    relationships := ⟨[Sample.owns 11 1 3 1, Sample.owns 12 2 3 0], by decide⟩ }

def uncountedMerge : Op :=
  .executeMerge 1 2 { reason := "", operator := "", audit := none, id := 31, now := 7 }

theorem perform_framed_uncountedSample : ∃ x, uncountedMerge.perform uncountedSample = .ok x ∧
    ∃ S, uncountedMerge.HasScope uncountedSample S ∧ S.Frames uncountedSample x.fst ∧
      S.Announced uncountedSample x.fst x.snd := by
  have ⟨x, hx⟩ := Except.exists_of_isOk <|
    show (uncountedMerge.perform uncountedSample).isOk by decide
  exact ⟨x, hx, perform_framed hx⟩

theorem not_perform_announced : ¬∀ (σ σ' : Store) (op : Op) (changes : List RelationshipChange),
    op.perform σ = .ok (σ', changes) →
      ∀ i, i ∈ changes.map (·.relationshipId) ↔ Changed σ σ' i := by
  intro h
  have hrun : (do
      let x ← uncountedMerge.perform uncountedSample
      return (x.snd.map RelationshipChange.relationshipId,
        (x.fst.relationships.get? 11).map withoutUpdatedAt)) =
        .ok ([12, 11], some (Sample.owns 11 1 3 1)) := by
    decide
  simp only [Except.bind_eq_ok, Except.pure_eq_ok, Prod.mk.injEq] at hrun
  obtain ⟨x, hx, hn, hr⟩ := hrun
  have hi := h _ _ _ _ hx 11
  rw [hn, Changed, hr] at hi
  exact hi.mp (by decide) rfl

end Op

end Merge
