import OsintCore.Storage.Store

namespace List

variable {α : Type} {l : List α} {n : Nat}

-- A listing which is shorter than its limit is complete.
theorem take_of_length_take_lt (h : (l.take n).length < n) : l.take n = l := by
  apply take_of_length_le
  simp only [length_take] at h
  omega

theorem mem_take_of_length_lt {a : α} (h : (l.take n).length < n) : a ∈ l.take n ↔ a ∈ l := by
  rw [take_of_length_take_lt h]

end List

namespace Store

variable {σ : Store} {id : Uuid} {limit : Nat}

theorem mem_listEntityAliasesByEntity {a : EntityAlias}
    (h : (σ.listEntityAliasesByEntity id limit).length < clampLimit limit) :
    a ∈ σ.listEntityAliasesByEntity id limit ↔ a ∈ σ.entityAliases ∧ a.entityId = id := by
  simp [listEntityAliasesByEntity, List.mem_take_of_length_lt h, Table.mem_def]

theorem mem_listEntityIdentifiersByEntity {i : EntityIdentifier}
    (h : (σ.listEntityIdentifiersByEntity id limit).length < clampLimit limit) :
    i ∈ σ.listEntityIdentifiersByEntity id limit ↔ i ∈ σ.entityIdentifiers ∧ i.entityId = id := by
  simp [listEntityIdentifiersByEntity, List.mem_take_of_length_lt h, Table.mem_def]

theorem mem_listEntityExtractionsByEntity {x : EntityExtraction}
    (h : (σ.listEntityExtractionsByEntity id limit).length < clampLimit limit) :
    x ∈ σ.listEntityExtractionsByEntity id limit ↔ x ∈ σ.entityExtractions ∧ x.entityId = id := by
  simp [listEntityExtractionsByEntity, List.mem_take_of_length_lt h, Table.mem_def]

theorem mem_listRelationshipsByObject {r : Relationship}
    (h : (σ.listRelationshipsByObject id limit).length < clampLimit limit) :
    r ∈ σ.listRelationshipsByObject id limit ↔ r ∈ σ.relationships ∧ r.Touches id := by
  simp [listRelationshipsByObject, List.mem_take_of_length_lt h, Table.mem_def]

theorem nodup_listRelationshipsByObject : (σ.listRelationshipsByObject id limit).Nodup :=
  List.Nodup.sublist (List.take_sublist ..) <| List.nodup_reverse.mpr <|
    σ.relationships.nodup.filter _

theorem mem_listRelationshipEvidence {e : RelationshipEvidence}
    (h : (σ.listRelationshipEvidence id limit).length < clampLimit limit) :
    e ∈ σ.listRelationshipEvidence id limit ↔
      e ∈ σ.relationshipEvidence ∧ e.relationshipId = id := by
  simp [listRelationshipEvidence, List.mem_take_of_length_lt h, Table.mem_def]

-- The listing depends on nothing but the evidence of the relationship.
theorem listRelationshipEvidence_congr {σ₁ σ₂ : Store}
    (h : ∀ e, e.relationshipId = id →
      (e ∈ σ₁.relationshipEvidence ↔ e ∈ σ₂.relationshipEvidence)) :
    σ₁.listRelationshipEvidence id limit = σ₂.listRelationshipEvidence id limit := by
  have : σ₁.relationshipEvidence.filter (·.relationshipId = id) =
      σ₂.relationshipEvidence.filter (·.relationshipId = id) :=
    Table.ext_mem fun e => by
      simp only [Table.mem_filter, decide_eq_true_iff]
      exact and_congr_left (h e)
  simp only [listRelationshipEvidence]
  rw [show List.filter _ _ = _ from congrArg Table.rows this]
  rfl

end Store
