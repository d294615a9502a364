import OsintCore.Merge.Theorems.Classify
import OsintCore.Storage.Theorems.Put
import OsintCore.Storage.Theorems.Listing
import OsintCore.Table.Fold

open Except (bind_eq_ok pure_eq_ok)

namespace Merge

@[simp]
theorem storage_eq_ok {α : Type} {x : Except StorageError α} {a : α} :
    storage x = .ok a ↔ x = .ok a := by
  simp [storage]

@[simp]
theorem orThrow_eq_ok {α : Type} {x : Option α} {e : MergeError} {a : α} :
    orThrow x e = .ok a ↔ x = some a := by
  cases x <;> simp [orThrow]

theorem rejectTruncated_eq_ok {α : Type} {c : String} {id : Uuid} {rows rows' : List α} :
    rejectTruncated c id rows = .ok rows' ↔ rows.length < mergeRefCap ∧ rows = rows' := by
  unfold rejectTruncated
  split_ifs with h
  · simp [Nat.not_lt.mpr h]
  · simp [Nat.not_le.mp h]

-- The entries of a history which describe a deleted relationship.

def selfLoopEntry (rel : Relationship) : MergedRelationship where
  absorbedRelationshipId := rel.id
  absorberRelationshipId := none
  absorbedSnapshot       := rel
  absorberPreMerge       := none
  movedEvidenceIds       := []

def collisionEntry (db : Store) (c : Collision) : MergedRelationship where
  absorbedRelationshipId := c.absorbed.id
  absorberRelationshipId := some c.absorber.id
  absorbedSnapshot       := c.absorbed
  absorberPreMerge       := some (Tx.snapshotOf c.absorber)
  movedEvidenceIds       := (db.listRelationshipEvidence c.absorbed.id mergeRefCap).map (·.id)

def moveTo (absorberId : RelationshipId) (e : RelationshipEvidence) : RelationshipEvidence :=
  { e with relationshipId := absorberId }

@[simp]
theorem moveTo_id {b : RelationshipId} {e : RelationshipEvidence} : (moveTo b e).id = e.id :=
  rfl

@[simp]
theorem moveTo_relationshipId {b : RelationshipId} {e : RelationshipEvidence} :
    (moveTo b e).relationshipId = b :=
  rfl

namespace Tx

section SelfLoops

variable {tx : Tx} {rel : Relationship} {i : Uuid}

theorem deleteSelfLoop_relationships :
    (deleteSelfLoop tx rel).db.relationships.get? i =
      if rel.id = i then none else tx.db.relationships.get? i := by
  simp [deleteSelfLoop]

theorem deleteSelfLoop_evidence :
    (deleteSelfLoop tx rel).db.relationshipEvidence.get? i =
      (tx.db.relationshipEvidence.get? i).filter (·.relationshipId ≠ rel.id) := by
  simp [deleteSelfLoop]

theorem deleteSelfLoop_mergedRelationships :
    (deleteSelfLoop tx rel).mergedRelationships = tx.mergedRelationships ++ [selfLoopEntry rel] :=
  rfl

end SelfLoops

section Collisions

variable {tx tx' : Tx} {c : Collision} {now : Timestamp} {i : Uuid}

theorem moveEvidence_foldlM {b : RelationshipId} {l : List RelationshipEvidence} {db db' : Store}
    (h : l.foldlM (moveEvidence b) db = .ok db') :
    db'.toTables = { db.toTables with
      relationshipEvidence := l.foldl (fun t e => t.put (moveTo b e)) db.relationshipEvidence } := by
  let set (t : Tables) (evidence : Table RelationshipEvidence) : Tables :=
    { t with relationshipEvidence := evidence }
  have hv := List.foldlM_view (v := Store.toTables)
    (g := fun t e => set t (t.relationshipEvidence.put (moveTo b e))) h fun db db' e _ he => by
      simp only [moveEvidence, storage_eq_ok, Store.putRelationshipEvidence_eq_ok] at he
      exact he.right.right
  rw [hv, List.foldl_component (p := Tables.relationshipEvidence) (q := set)
    (u := fun t e => t.put (moveTo b e)) (fun _ _ => rfl) (fun _ _ _ => rfl) fun _ => rfl]

-- What the absorption of a relationship writes.
theorem absorbCollision_ok (h : absorbCollision now tx c = .ok tx') :
    (tx.db.listRelationshipEvidence c.absorbed.id mergeRefCap).length < mergeRefCap ∧
    tx'.repointedReferences = tx.repointedReferences ∧
    tx'.mergedRelationships = tx.mergedRelationships ++ [collisionEntry tx.db c] ∧
    tx'.db.toTables = { tx.db.toTables with
      relationships :=
        (tx.db.relationships.put (absorbedInto c.absorbed c.absorber now)).erase c.absorbed.id
      relationshipEvidence :=
        ((tx.db.listRelationshipEvidence c.absorbed.id mergeRefCap).foldl
          (fun t e => t.put (moveTo c.absorber.id e)) tx.db.relationshipEvidence).filter
            (·.relationshipId ≠ c.absorbed.id) } := by
  simp only [absorbCollision, bind_eq_ok, pure_eq_ok, storage_eq_ok, rejectTruncated_eq_ok,
    Store.putRelationship_eq_ok] at h
  obtain ⟨_, ⟨hl, he⟩, db₁, h₁, db₂, ⟨_, h₂⟩, h⟩ := h
  subst he h
  simp [collisionEntry, h₂, moveEvidence_foldlM h₁, hl]

theorem absorbCollision_relationships (h : absorbCollision now tx c = .ok tx') :
    tx'.db.relationships.get? i =
      if c.absorbed.id = i then none
      else if c.absorber.id = i then some (absorbedInto c.absorbed c.absorber now)
      else tx.db.relationships.get? i := by
  have ⟨_, _, _, h⟩ := absorbCollision_ok h
  simp only [h, Table.get?_erase, Table.get?_put]
  rfl

theorem absorbCollision_evidence (h : absorbCollision now tx c = .ok tx')
    (hne : c.absorber.id ≠ c.absorbed.id) :
    tx'.db.relationshipEvidence.get? i =
      (tx.db.relationshipEvidence.get? i).map fun e =>
        if e.relationshipId = c.absorbed.id then moveTo c.absorber.id e else e := by
  have ⟨hl, _, _, h⟩ := absorbCollision_ok h
  have hm := Table.get?_foldl_put (f := moveTo c.absorber.id) (by simp)
    (fun e => Store.mem_listRelationshipEvidence (e := e) hl) i
  simp only [h, Table.get?_filter, hm]
  cases tx.db.relationshipEvidence.get? i
  case none   => rfl
  case some e => simp only [Option.map_some]; split_ifs <;> simp [*]

end Collisions

section Repoints

variable {tx tx' : Tx} {m s : EntityId} {now : Timestamp}

-- The four loops which repoint rows: each step rewrites a row of one table, the component `p` of the
-- tables, and records the reference it has rewritten.
structure Repoints {α γ : Type} (body : Tx → α → Except MergeError Tx)
    (ref : α → List RepointedReference) (p : Tables → γ) (q : Tables → γ → Tables)
    (u : γ → α → γ) : Prop where
  read  : ∀ t c, p (q t c) = c
  write : ∀ t c c', q (q t c) c' = q t c'
  same  : ∀ t, q t (p t) = t
  step  : ∀ {tx tx' a}, body tx a = .ok tx' →
    tx'.repointedReferences = tx.repointedReferences ++ ref a ∧
    tx'.mergedRelationships = tx.mergedRelationships ∧
    tx'.db.toTables = q tx.db.toTables (u (p tx.db.toTables) a)

theorem Repoints.loop {α γ : Type} {body : Tx → α → Except MergeError Tx}
    {ref : α → List RepointedReference} {p : Tables → γ} {q : Tables → γ → Tables} {u : γ → α → γ}
    (hr : Repoints body ref p q u) {l : List α} (h : l.foldlM body tx = .ok tx') :
    tx'.repointedReferences = tx.repointedReferences ++ l.flatMap ref ∧
    tx'.mergedRelationships = tx.mergedRelationships ∧
    tx'.db.toTables = q tx.db.toTables (l.foldl u (p tx.db.toTables)) := by
  induction l generalizing tx
  case nil =>
    cases h
    simp [hr.same]
  case cons a l hi =>
    simp only [List.foldlM_cons, bind_eq_ok] at h
    obtain ⟨tx₁, h₁, h⟩ := h
    obtain ⟨hr₁, hm₁, ht₁⟩ := hr.step h₁
    obtain ⟨hr₂, hm₂, ht₂⟩ := hi h
    refine ⟨by simp [hr₂, hr₁], hm₂.trans hm₁, ?_⟩
    rw [ht₂, ht₁, hr.read, hr.write, List.foldl_cons]

def relationshipReference (m : EntityId) (rel : Relationship) : List RepointedReference :=
  (relationshipRepointColumn rel m).toList.map (repointed "relationships" rel.id · m)

theorem repointRelationship_repoints : Repoints (repointRelationship m s now)
    (relationshipReference m) Tables.relationships (fun t c => { t with relationships := c })
    (fun t rel => t.put (repointedRow m s now rel)) where
  read _ _    := rfl
  write _ _ _ := rfl
  same _      := rfl
  step {tx tx' rel} h := by
    simp only [repointRelationship, bind_eq_ok, pure_eq_ok, storage_eq_ok, orThrow_eq_ok,
      Store.putRelationship_eq_ok] at h
    obtain ⟨column, hc, db, ⟨_, hd⟩, h⟩ := h
    subst h
    exact ⟨by simp [relationshipReference, hc], rfl, hd⟩

theorem repointAlias_repoints : Repoints (repointAlias m s)
    (fun a => [repointed "entity_aliases" a.id "entity_id" m]) Tables.entityAliases
    (fun t c => { t with entityAliases := c }) (fun t a => t.put { a with entityId := s }) where
  read _ _    := rfl
  write _ _ _ := rfl
  same _      := rfl
  step {tx tx' a} h := by
    simp only [repointAlias, bind_eq_ok, pure_eq_ok, storage_eq_ok, Store.putEntityAlias_eq_ok] at h
    obtain ⟨db, ⟨_, hd⟩, h⟩ := h
    subst h
    exact ⟨rfl, rfl, hd⟩

theorem repointIdentifier_repoints : Repoints (repointIdentifier m s)
    (fun i => [repointed "entity_identifiers" i.id "entity_id" m]) Tables.entityIdentifiers
    (fun t c => { t with entityIdentifiers := c }) (fun t i => t.put { i with entityId := s }) where
  read _ _    := rfl
  write _ _ _ := rfl
  same _      := rfl
  step {tx tx' i} h := by
    simp only [repointIdentifier, bind_eq_ok, pure_eq_ok, storage_eq_ok,
      Store.putEntityIdentifier_eq_ok] at h
    obtain ⟨db, ⟨_, _, hd⟩, h⟩ := h
    subst h
    exact ⟨rfl, rfl, hd⟩

theorem repointExtraction_repoints : Repoints (repointExtraction m s)
    (fun x => [repointed "entity_extractions" x.id "entity_id" m]) Tables.entityExtractions
    (fun t c => { t with entityExtractions := c }) (fun t x => t.put { x with entityId := s }) where
  read _ _    := rfl
  write _ _ _ := rfl
  same _      := rfl
  step {tx tx' x} h := by
    simp only [repointExtraction, bind_eq_ok, pure_eq_ok, storage_eq_ok,
      Store.putEntityExtraction_eq_ok] at h
    obtain ⟨db, ⟨_, hd⟩, h⟩ := h
    subst h
    exact ⟨rfl, rfl, hd⟩

end Repoints

end Tx

end Merge
