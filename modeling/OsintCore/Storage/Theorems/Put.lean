import OsintCore.Storage.Store

namespace Store

variable {σ σ' : Store}

-- A write is accepted if the row meets a condition, and then changes nothing but the row's table.
theorem guard_eq_ok {P R : Prop} [Decidable P] {x : P → Except StorageError Store}
    {e : StorageError} (h : ∀ p, x p = .ok σ' ↔ R) :
    (if p : P then x p else .error e) = .ok σ' ↔ P ∧ R := by
  split_ifs with p <;> simp [p, h]

theorem ok_eq_ok {τ : Store} {t : Tables} (h : τ.toTables = t) :
    (.ok τ : Except StorageError Store) = .ok σ' ↔ σ'.toTables = t := by
  subst h
  exact ⟨fun h => by cases h; rfl, fun h => congrArg _ (ext h.symm)⟩

theorem putEntity_eq_ok {e : Entity} :
    σ.putEntity e = .ok σ' ↔ σ.entities.Admits (some <| Entity.naturalKey ·) e ∧
      (∀ i ∈ e.mergedInto, ((σ.entities.put e).get? i).isSome) ∧
      σ'.toTables = { σ.toTables with entities := σ.entities.put e } :=
  guard_eq_ok fun _ => guard_eq_ok fun _ => ok_eq_ok rfl

theorem putEntityAlias_eq_ok {a : EntityAlias} :
    σ.putEntityAlias a = .ok σ' ↔ (σ.entities.get? a.entityId).isSome ∧
      σ'.toTables = { σ.toTables with entityAliases := σ.entityAliases.put a } :=
  guard_eq_ok fun _ => ok_eq_ok rfl

theorem putEntityIdentifier_eq_ok {i : EntityIdentifier} :
    σ.putEntityIdentifier i = .ok σ' ↔
      σ.entityIdentifiers.Admits (some <| EntityIdentifier.naturalKey ·) i ∧
      (σ.entities.get? i.entityId).isSome ∧
      σ'.toTables = { σ.toTables with entityIdentifiers := σ.entityIdentifiers.put i } :=
  guard_eq_ok fun _ => guard_eq_ok fun _ => ok_eq_ok rfl

theorem putEntityExtraction_eq_ok {x : EntityExtraction} :
    σ.putEntityExtraction x = .ok σ' ↔ (σ.entities.get? x.entityId).isSome ∧
      σ'.toTables = { σ.toTables with entityExtractions := σ.entityExtractions.put x } :=
  guard_eq_ok fun _ => ok_eq_ok rfl

theorem putRelationship_eq_ok {r : Relationship} :
    σ.putRelationship r = .ok σ' ↔
      σ.relationships.Admits (some <| Relationship.naturalKey ·) r ∧
      σ'.toTables = { σ.toTables with relationships := σ.relationships.put r } :=
  guard_eq_ok fun _ => ok_eq_ok rfl

theorem putRelationshipEvidence_eq_ok {e : RelationshipEvidence} :
    σ.putRelationshipEvidence e = .ok σ' ↔ (σ.relationships.get? e.relationshipId).isSome ∧
      (∀ i ∈ e.rawEvidenceId, (σ.rawEvidence.get? i).isSome) ∧
      σ'.toTables = { σ.toTables with relationshipEvidence := σ.relationshipEvidence.put e } :=
  guard_eq_ok fun _ => guard_eq_ok fun _ => ok_eq_ok rfl

theorem putMergeHistory_eq_ok {h : MergeHistory} :
    σ.putMergeHistory h = .ok σ' ↔ (σ.entities.get? h.survivorId).isSome ∧
      σ'.toTables = { σ.toTables with mergeHistory := σ.mergeHistory.put h } :=
  guard_eq_ok fun _ => ok_eq_ok rfl

theorem putDocument_eq_ok {d : Document} :
    σ.putDocument d = .ok σ' ↔ (∀ i ∈ d.duplicateOf, ((σ.documents.put d).get? i).isSome) ∧
      σ'.toTables = { σ.toTables with documents := σ.documents.put d } :=
  guard_eq_ok fun _ => ok_eq_ok rfl

theorem putProvenance_eq_ok {p : Provenance} :
    σ.putProvenance p = .ok σ' ↔
      σ.provenance.Admits (Provenance.subjectOf actionEntityExtracted) p ∧
      σ.provenance.Admits (Provenance.subjectOf actionDeduplicated) p ∧
      (∀ i ∈ p.rawEvidenceId, (σ.rawEvidence.get? i).isSome) ∧
      σ'.toTables = { σ.toTables with provenance := σ.provenance.put p } :=
  guard_eq_ok fun _ => guard_eq_ok fun _ => guard_eq_ok fun _ => ok_eq_ok rfl

theorem putDuplicateGroup_eq_ok {g : DuplicateGroup} :
    σ.putDuplicateGroup g = .ok σ' ↔ σ.duplicateGroups.Admits DuplicateGroup.memberObjectId g ∧
      (∀ i ∈ g.memberRawEvidenceId, (σ.rawEvidence.get? i).isSome) ∧
      σ'.toTables = { σ.toTables with duplicateGroups := σ.duplicateGroups.put g } :=
  guard_eq_ok fun _ => guard_eq_ok fun _ => ok_eq_ok rfl

-- A row which meets the constraints is accepted.

theorem exists_putEntity {e : Entity} (hu : σ.entities.Admits (some <| Entity.naturalKey ·) e)
    (hm : ∀ i ∈ e.mergedInto, ((σ.entities.put e).get? i).isSome) : ∃ σ', σ.putEntity e = .ok σ' :=
  ⟨_, (dif_pos hu).trans (dif_pos hm)⟩

theorem exists_putEntityAlias {a : EntityAlias} (h : (σ.entities.get? a.entityId).isSome) :
    ∃ σ', σ.putEntityAlias a = .ok σ' :=
  ⟨_, dif_pos h⟩

theorem exists_putEntityIdentifier {i : EntityIdentifier}
    (hu : σ.entityIdentifiers.Admits (some <| EntityIdentifier.naturalKey ·) i)
    (h : (σ.entities.get? i.entityId).isSome) : ∃ σ', σ.putEntityIdentifier i = .ok σ' :=
  ⟨_, (dif_pos hu).trans (dif_pos h)⟩

theorem exists_putEntityExtraction {x : EntityExtraction}
    (h : (σ.entities.get? x.entityId).isSome) : ∃ σ', σ.putEntityExtraction x = .ok σ' :=
  ⟨_, dif_pos h⟩

theorem exists_putRelationship {r : Relationship}
    (h : σ.relationships.Admits (some <| Relationship.naturalKey ·) r) :
    ∃ σ', σ.putRelationship r = .ok σ' :=
  ⟨_, dif_pos h⟩

theorem exists_putRelationshipEvidence {e : RelationshipEvidence}
    (h : (σ.relationships.get? e.relationshipId).isSome)
    (hr : ∀ i ∈ e.rawEvidenceId, (σ.rawEvidence.get? i).isSome) :
    ∃ σ', σ.putRelationshipEvidence e = .ok σ' :=
  ⟨_, (dif_pos h).trans (dif_pos hr)⟩

theorem exists_putMergeHistory {h : MergeHistory} (hs : (σ.entities.get? h.survivorId).isSome) :
    ∃ σ', σ.putMergeHistory h = .ok σ' :=
  ⟨_, dif_pos hs⟩

@[simp]
theorem deleteRelationship_tables (id : RelationshipId) : (σ.deleteRelationship id).toTables =
    { σ.toTables with
      relationships        := σ.relationships.erase id
      relationshipEvidence := σ.relationshipEvidence.filter (·.relationshipId ≠ id) } :=
  rfl

end Store
