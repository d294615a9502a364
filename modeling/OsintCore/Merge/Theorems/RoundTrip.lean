import OsintCore.Merge.Theorems.Undoable

-- The same relationship, up to the time of its last update.
def Relationship.Same (r₁ r₂ : Relationship) : Prop :=
  { r₁ with updatedAt := r₂.updatedAt } = r₂

theorem Relationship.Same.trans {r₁ r₂ r₃ : Relationship} (h₁ : r₁.Same r₂) (h₂ : r₂.Same r₃) :
    r₁.Same r₃ := by
  unfold Same at *
  rw [← h₂, ← h₁]

namespace Merge

-- `τ` holds the graph of `σ`, up to update times and up to the evidence in `lost`.
structure Recovered (lost : RelationshipEvidence → Bool) (σ τ : Store) : Prop where
  entities    : τ.entities = σ.entities
  aliases     : τ.entityAliases = σ.entityAliases
  identifiers : τ.entityIdentifiers = σ.entityIdentifiers
  extractions : τ.entityExtractions = σ.entityExtractions
  relationships (i) :
    Option.Rel Relationship.Same (σ.relationships.get? i) (τ.relationships.get? i)
  evidence    : τ.relationshipEvidence = σ.relationshipEvidence.filter (!lost ·)

-- The evidence which a merge loses by cascade, as its relationship becomes a self-loop.
def ofSelfLoop (σ : Store) (m s : EntityId) (e : RelationshipEvidence) : Bool :=
  (σ.relationships.get? e.relationshipId).any fun r => r.Touches m ∧ BecomesLoop m s r

theorem ofSelfLoop_iff {σ : Store} {m s : EntityId} {e : RelationshipEvidence} {r : Relationship}
    (h : σ.relationships.get? e.relationshipId = some r) :
    ofSelfLoop σ m s e ↔ fate σ.relationships m s r = .selfLoop := by
  simp [ofSelfLoop, h, fate_eq_selfLoop]

section SameRows

variable {v v₁ v₂ v₃ : Option Relationship} {r₁ r₂ : Relationship}

theorem same_restoreEnd {m : EntityId} {r : Relationship} {now : Timestamp} (h : r₁.Same r₂) :
    (restoreEnd m r now r₁).Same (restoreEnd m r now r₂) := by
  unfold Relationship.Same at h
  rw [← h]
  unfold restoreEnd
  split_ifs <;> rfl

theorem same_restoredTo {pre : AbsorberSnapshot} {now : Timestamp} (h : r₁.Same r₂) :
    (Undo.restoredTo r₁ pre now).Same (Undo.restoredTo r₂ pre now) := by
  unfold Relationship.Same at h
  rw [← h]
  rfl

theorem rel_same_refl : Option.Rel Relationship.Same v v := by
  cases v
  case none => exact .none
  case some => exact .some rfl

theorem rel_same_trans (h₁ : Option.Rel Relationship.Same v₁ v₂)
    (h₂ : Option.Rel Relationship.Same v₂ v₃) : Option.Rel Relationship.Same v₁ v₃ := by
  cases h₁ <;> cases h₂
  case none.none       => exact .none
  case some.some h₁ _ h₂ => exact .some (h₁.trans h₂)

theorem revertedRelationship_same {t : Table Relationship} {m s : EntityId} {now : Timestamp}
    {i : Uuid} (h : Option.Rel Relationship.Same v₁ v₂) : Option.Rel Relationship.Same
      (revertedRelationship t m s now i v₁) (revertedRelationship t m s now i v₂) := by
  unfold revertedRelationship
  cases t.get? i
  case none => exact h
  case some r =>
    cases hf : fate t m s r
    all_goals simp only [hf]
    case kept => exact h
    case repointed => cases h <;> constructor; exact same_restoreEnd ‹_›
    case absorbs => cases h <;> constructor; exact same_restoredTo ‹_›
    all_goals exact rel_same_refl

end SameRows

section Rows

variable {m s : EntityId} {now now' : Timestamp} {r : Relationship}

theorem restoreEnd_repointedRow (ht : r.Touches m) (hl : ¬BecomesLoop m s r) :
    restoreEnd m r now' (repointedRow m s now r) = { r with updatedAt := now' } := by
  simp only [BecomesLoop, repointedEnds] at hl
  unfold restoreEnd repointedRow repointedEnds
  by_cases hs : r.sourceObjectId = m
  case pos =>
    have hd : r.targetObjectId ≠ m := fun hd => by simp [hs, hd] at hl
    simp [hs, hd]
  case neg =>
    have hd : r.targetObjectId = m := ht.resolve_left hs
    simp [hs, hd]

end Rows

namespace Executed

variable {σ σ' : Store} {survivor merged : Entity} {ctx : Context} {h : MergeHistory}
  (he : Executed σ σ' survivor merged ctx h)
include he

-- A merge leaves no relationship at the merged entity.
theorem not_touches (hne : merged.id ≠ survivor.id) {b : Relationship}
    (hb : b ∈ σ'.relationships) : ¬b.Touches merged.id := by
  have hg := Table.mem_iff_get?.mp hb
  rw [he.relationships] at hg
  have ⟨r, hr, hg⟩ := Option.bind_eq_some_iff.mp hg
  unfold mergedRelationship at hg
  split at hg
  case h_1 hf    => exact Option.some.inj hg ▸ (fate_eq_kept.mp hf).left
  case h_4 hf    => exact Option.some.inj hg ▸ repointedRow_not_touches hne
  case h_5 a hf  => exact Option.some.inj hg ▸ (fate_eq_absorbs σ.relationship_natural |>.mp hf).left
  all_goals simp at hg

theorem undoable (hne : merged.id ≠ survivor.id) (hs : (σ.entities.get? survivor.id).isSome) :
    Undoable σ survivor merged σ' where
  origin b hb ht := absurd ht <| he.not_touches hne hb
  repointed r hm hf := by
    have ⟨ht, hl, _⟩ := fate_eq_repointed.mp hf
    have hg : σ.relationships.get? r.id = some r := Table.mem_iff_get?.mp hm
    refine ⟨repointedRow merged.id survivor.id ctx.now r, ?_, fun now => ?_⟩
    · simp [he.relationships, hg, mergedRelationship, hf]
    · rw [restoreEnd_repointedRow ht hl]
      rfl
  absorber b hm a hf := by
    have hg : σ.relationships.get? b.id = some b := Table.mem_iff_get?.mp hm
    simp [he.relationships, hg, mergedRelationship, hf]
  evidence e hm a ha b hi hf := by
    have hg : σ.relationshipEvidence.get? e.id = some e := Table.mem_iff_get?.mp hm
    have hga : σ.relationships.get? a.id = some a := Table.mem_iff_get?.mp ha
    simp [he.evidence, hg, mergedEvidence, ← hi, hga, hf]
  aliases a hm _ := by
    have hg : σ.entityAliases.get? a.id = some a := Table.mem_iff_get?.mp hm
    simp [he.aliases, hg]
  identifiers a hm _ := by
    have hg : σ.entityIdentifiers.get? a.id = some a := Table.mem_iff_get?.mp hm
    simp [he.identifiers, hg]
  extractions a hm _ := by
    have hg : σ.entityExtractions.get? a.id = some a := Table.mem_iff_get?.mp hm
    simp [he.extractions, hg]
  merged   := by simp [he.entities]
  survivor := by rw [he.entities]; exact Table.isSome_get?_put hs

variable {τ σ'' : Store} {now : Timestamp} (hu : Undone τ σ'' h now)
include hu

-- The undo may happen in any store `τ` in which the rows are as the merge has left them.

theorem recovered_relationships (hne : merged.id ≠ survivor.id) (i : Uuid)
    (hτ : Option.Rel Relationship.Same (σ'.relationships.get? i) (τ.relationships.get? i)) :
    Option.Rel Relationship.Same (σ.relationships.get? i) (σ''.relationships.get? i) := by
  rw [hu.relationships, he.reverted_relationships hne]
  refine rel_same_trans ?_ (revertedRelationship_same hτ)
  rw [he.relationships, revertedRelationship]
  cases hr : σ.relationships.get? i
  case none   => exact .none
  case some r =>
    simp only [Option.bind_some, mergedRelationship]
    cases hf : fate σ.relationships merged.id survivor.id r
    case repointed =>
      obtain ⟨ht, hl, _⟩ := fate_eq_repointed.mp hf
      simp only [Option.map_some, restoreEnd_repointedRow ht hl]
      exact .some rfl
    all_goals exact .some rfl

theorem recovered_evidence (hτ : τ.relationshipEvidence = σ'.relationshipEvidence) :
    σ''.relationshipEvidence =
      σ.relationshipEvidence.filter (!ofSelfLoop σ merged.id survivor.id ·) := by
  ext1 i
  rw [hu.evidence, he.reverted_evidence, hτ, he.evidence, revertedEvidence, Table.get?_filter]
  cases hr : σ.relationshipEvidence.get? i
  case none   => rfl
  case some e =>
    have ⟨r, hr⟩ : ∃ r, σ.relationships.get? e.relationshipId = some r :=
      Option.isSome_iff_exists.mp <| σ.evidence_relationship e (Table.get?_mem hr) _ rfl
    have hl := ofSelfLoop_iff (m := merged.id) (s := survivor.id) hr
    simp only [Option.bind_some, mergedEvidence, hr, Option.map_some]
    cases hf : fate σ.relationships merged.id survivor.id r <;>
      simp_all [Option.filter, moveTo]

theorem recovered_entities (hτ : τ.entities = σ'.entities)
    (hg : σ.entities.get? merged.id = some merged) (hm : merged.mergedInto = none) :
    σ''.entities = σ.entities := by
  have ⟨e, hge, hput⟩ := hu.entities
  have : e = { merged with mergedInto := some survivor.id } := by
    simpa [hτ, he.entities, he.mergedId, eq_comm] using hge
  ext1 i
  simp only [hput, this, hτ, he.entities, Table.get?_put, Entity.key_eq]
  split_ifs with hi
  · rw [← hi, hg, ← hm]
  · rfl

theorem recovered_aliases (hτ : τ.entityAliases = σ'.entityAliases) :
    σ''.entityAliases = σ.entityAliases := by
  ext1 i
  rw [hu.aliases, he.reverted_aliases, hτ, he.aliases]
  cases σ.entityAliases.get? i
  case none   => rfl
  case some a =>
    by_cases ha : a.entityId = merged.id
    case pos => simp [← ha]
    case neg => simp [ha]

theorem recovered_identifiers (hτ : τ.entityIdentifiers = σ'.entityIdentifiers) :
    σ''.entityIdentifiers = σ.entityIdentifiers := by
  ext1 i
  rw [hu.identifiers, he.reverted_identifiers, hτ, he.identifiers]
  cases σ.entityIdentifiers.get? i
  case none   => rfl
  case some a =>
    by_cases ha : a.entityId = merged.id
    case pos => simp [← ha]
    case neg => simp [ha]

theorem recovered_extractions (hτ : τ.entityExtractions = σ'.entityExtractions) :
    σ''.entityExtractions = σ.entityExtractions := by
  ext1 i
  rw [hu.extractions, he.reverted_extractions, hτ, he.extractions]
  cases σ.entityExtractions.get? i
  case none   => rfl
  case some a =>
    by_cases ha : a.entityId = merged.id
    case pos => simp [← ha]
    case neg => simp [ha]

omit hu in
theorem recovered (hu : Undone σ' σ'' h now) (hne : merged.id ≠ survivor.id)
    (hg : σ.entities.get? merged.id = some merged) (hm : merged.mergedInto = none) :
    Recovered (ofSelfLoop σ merged.id survivor.id) σ σ'' where
  entities        := he.recovered_entities hu rfl hg hm
  aliases         := he.recovered_aliases hu rfl
  identifiers     := he.recovered_identifiers hu rfl
  extractions     := he.recovered_extractions hu rfl
  relationships i := he.recovered_relationships hu hne i rel_same_refl
  evidence        := he.recovered_evidence hu rfl

end Executed

-- A merge which is undone right away leaves the graph as it was.
theorem undoMerge_executeMerge {σ σ' : Store} {survivorId mergedId : EntityId}
    {reason operator : String} {id : MergeHistoryId} {now : Timestamp} {h : MergeHistory}
    {changes : List RelationshipChange}
    (he : executeMerge σ survivorId mergedId reason operator id now = .ok (σ', h, changes))
    (now' : Timestamp) :
    ∃ σ'' changes', undoMerge σ' h.id now' = .ok (σ'', changes') ∧
      Recovered (ofSelfLoop σ mergedId survivorId) σ σ'' := by
  have ⟨survivor, merged, hc, hx⟩ := executeMergeWithAudit_eq_ok.mp he
  have hne := hc.ids_ne
  have hs := hc.survivor_id
  have hm := hc.merged_id
  subst hs hm
  have he := executeInTx_executed hne hx
  have hu := he.undoable hne (by simp [hc.get_survivor])
  have ⟨⟨σ'', changes'⟩, hu'⟩ := hu.undoInTx_progress he hne now'
  have hundo : undoMerge σ' h.id now' = .ok (σ'', changes') := by
    refine undoMerge_eq_ok.mpr ⟨h, survivor, { merged with mergedInto := some survivor.id }, ?_,
      he.undoneAt, ?_, hc.survivor_unmerged, ?_, hu'⟩
    · simp [he.mergeHistory]
    · simp [he.entities, he.survivorId, hne, hc.get_survivor]
    · simp [he.entities, he.mergedId]
  exact ⟨σ'', changes', hundo,
    he.recovered (undoInTx_undone hu') hne hc.get_merged hc.merged_unmerged⟩

-- A self-loop, a collision, and a relationship which is only repointed.
def roundTripSample : Store := .mk
  { entities      := Sample.threePeople
    relationships := ⟨[Sample.owns 11 1 3 1, Sample.owns 12 2 3 2, Sample.owns 13 2 1 1,
      Sample.owns 14 3 2 0], by decide⟩
    relationshipEvidence := ⟨[Sample.evidenceOf 11 21, Sample.evidenceOf 12 22,
      Sample.evidenceOf 12 23, Sample.evidenceOf 13 24], by decide⟩ }

theorem undoMerge_executeMerge_roundTripSample :
    ∃ x, executeMerge roundTripSample 1 2 "" "" 31 7 = .ok x ∧
      ∃ σ'' changes', undoMerge x.fst x.snd.fst.id 8 = .ok (σ'', changes') ∧
        Recovered (ofSelfLoop roundTripSample 2 1) roundTripSample σ'' := by
  have ⟨x, hx⟩ := Except.exists_of_isOk <|
    show (executeMerge roundTripSample 1 2 "" "" 31 7).isOk by decide
  exact ⟨x, hx, undoMerge_executeMerge hx 8⟩

end Merge
