import OsintCore.Merge.Theorems.Revert

open Except (bind_eq_ok pure_eq_ok)

namespace Merge

variable {σ τ τ' : Store} {survivor merged : Entity}

-- What a store has to offer for a merge which was executed in `σ` to be undone in it.
structure Undoable (σ : Store) (survivor merged : Entity) (τ : Store) : Prop where
  -- The relationships of the merged entity are the ones which it had before the merge.
  origin : ∀ b ∈ τ.relationships, b.Touches merged.id →
    ∃ b₀ ∈ σ.relationships, b₀.id = b.id ∧ b₀.naturalKey = b.naturalKey
  repointed : ∀ r ∈ σ.relationships, fate σ.relationships merged.id survivor.id r = .repointed →
    ∃ row, τ.relationships.get? r.id = some row ∧
      ∀ now, (restoreEnd merged.id r now row).naturalKey = r.naturalKey
  absorber : ∀ b ∈ σ.relationships, ∀ a,
    fate σ.relationships merged.id survivor.id b = .absorbs a → (τ.relationships.get? b.id).isSome
  evidence : ∀ e ∈ σ.relationshipEvidence, ∀ a ∈ σ.relationships, ∀ b, a.id = e.relationshipId →
    fate σ.relationships merged.id survivor.id a = .absorbed b →
      (τ.relationshipEvidence.get? e.id).isSome
  aliases : ∀ a ∈ σ.entityAliases, a.entityId = merged.id → (τ.entityAliases.get? a.id).isSome
  identifiers : ∀ a ∈ σ.entityIdentifiers, a.entityId = merged.id →
    (τ.entityIdentifiers.get? a.id).isSome
  extractions : ∀ a ∈ σ.entityExtractions, a.entityId = merged.id →
    (τ.entityExtractions.get? a.id).isSome
  merged   : (τ.entities.get? merged.id).isSome
  survivor : (τ.entities.get? survivor.id).isSome

-- A step of the undo: no row gets lost, and a relationship is left with a key which it had in `σ`
-- or which it has already.
structure Restoring (σ τ τ' : Store) : Prop where
  relationships : ∀ i row', τ'.relationships.get? i = some row' →
    (∃ r ∈ σ.relationships, r.id = i ∧ row'.naturalKey = r.naturalKey) ∨
    (∃ row, τ.relationships.get? i = some row ∧ row'.naturalKey = row.naturalKey)
  kept        : ∀ i, (τ.relationships.get? i).isSome → (τ'.relationships.get? i).isSome
  evidence    : ∀ i, (τ.relationshipEvidence.get? i).isSome → (τ'.relationshipEvidence.get? i).isSome
  aliases     : ∀ i, (τ.entityAliases.get? i).isSome → (τ'.entityAliases.get? i).isSome
  identifiers : ∀ i, (τ.entityIdentifiers.get? i).isSome → (τ'.entityIdentifiers.get? i).isSome
  extractions : ∀ i, (τ.entityExtractions.get? i).isSome → (τ'.entityExtractions.get? i).isSome
  entities    : τ'.entities = τ.entities

theorem restoreEnd_naturalKey_congr {m : EntityId} {r a b : Relationship} (now now' : Timestamp)
    (h : a.naturalKey = b.naturalKey) :
    (restoreEnd m r now a).naturalKey = (restoreEnd m r now' b).naturalKey := by
  have ⟨hs, ht, hd⟩ := Relationship.naturalKey_eq_iff.mp h
  unfold restoreEnd
  split_ifs <;> simp [Relationship.naturalKey, hs, ht, hd]

theorem restoreEnd_naturalKey_self {m : EntityId} {r : Relationship} (now : Timestamp)
    (h : r.Touches m) : (restoreEnd m r now r).naturalKey = r.naturalKey := by
  unfold restoreEnd
  split_ifs with hs
  · simp [Relationship.naturalKey, hs]
  · simp [Relationship.naturalKey, h.resolve_left hs]

namespace Undoable

theorem restoring (hu : Undoable σ survivor merged τ) (hr : Restoring σ τ τ') :
    Undoable σ survivor merged τ' where
  origin b hb ht := by
    obtain ⟨r, hm, hi, hk⟩ | ⟨row, hg, hk⟩ := hr.relationships b.id b (Table.mem_iff_get?.mp hb)
    case inl => exact ⟨r, hm, hi, hk.symm⟩
    case inr =>
      have ⟨hm, hi⟩ := Table.get?_eq_some.mp hg
      have ⟨b₀, hm₀, hi₀, hk₀⟩ := hu.origin row hm (ht.of_naturalKey hk)
      exact ⟨b₀, hm₀, hi₀.trans hi, hk₀.trans hk.symm⟩
  repointed r hm hf := by
    have ⟨row, hg, hk⟩ := hu.repointed r hm hf
    have ⟨row', hg'⟩ := Option.isSome_iff_exists.mp <| hr.kept r.id (by simp [hg])
    refine ⟨row', hg', fun now => ?_⟩
    obtain ⟨r', hm', hi', hk'⟩ | ⟨row₁, hg₁, hk₁⟩ := hr.relationships _ _ hg'
    case inl =>
      have := Table.eq_of_key_eq hm' hm hi'
      subst this
      have ⟨ht, _⟩ := fate_eq_repointed.mp hf
      exact (restoreEnd_naturalKey_congr now now hk').trans (restoreEnd_naturalKey_self now ht)
    case inr =>
      have : row₁ = row := Option.some.inj (hg₁.symm.trans hg)
      exact (restoreEnd_naturalKey_congr now now (this ▸ hk₁)).trans (hk now)
  absorber b hm a hf := hr.kept _ (hu.absorber b hm a hf)
  evidence e hm a ha b hi hf := hr.evidence _ (hu.evidence e hm a ha b hi hf)
  aliases a hm hi := hr.aliases _ (hu.aliases a hm hi)
  identifiers a hm hi := hr.identifiers _ (hu.identifiers a hm hi)
  extractions a hm hi := hr.extractions _ (hu.extractions a hm hi)
  merged := hr.entities ▸ hu.merged
  survivor := hr.entities ▸ hu.survivor

-- A relationship may get back the natural key which it had before the merge.
theorem admits (hu : Undoable σ survivor merged τ) {r x : Relationship} (hr : r ∈ σ.relationships)
    (ht : r.Touches merged.id) (hi : r.id = x.id) (hk : x.naturalKey = r.naturalKey) :
    τ.relationships.Admits (some <| Relationship.naturalKey ·) x := by
  intro b hb hne _ h
  have hb' : b.naturalKey = r.naturalKey := (Option.some.inj h).trans hk
  have ⟨b₀, hm₀, hi₀, hk₀⟩ := hu.origin b hb (ht.of_naturalKey hb'.symm)
  have := σ.relationship_natural.key_eq hm₀ hr (congrArg some (hk₀.trans hb')) rfl
  exact hne <| hi₀.symm.trans <| this.trans hi

end Undoable

section Restore

variable {now : Timestamp} {r : RepointedReference}

theorem Restored.restoring (hr : Restored τ τ' r now)
    (hk : r.table = "relationships" → ∀ row, τ.relationships.get? r.rowId = some row →
      ∃ r₀ ∈ σ.relationships, r₀.id = r.rowId ∧
        (restoreColumn r now row).naturalKey = r₀.naturalKey) : Restoring σ τ τ' where
  relationships i row' hg := by
    rw [hr.relationships, restoreAt] at hg
    split_ifs at hg with h
    case pos =>
      obtain ⟨ht, rfl⟩ := h
      obtain ⟨row, hg, hrow⟩ := Option.map_eq_some_iff.mp hg
      obtain ⟨r₀, hm, hi, hk⟩ := hk ht row hg
      exact .inl ⟨r₀, hm, hi, hrow ▸ hk⟩
    case neg => exact .inr ⟨row', hg, rfl⟩
  kept i h := by rw [hr.relationships, restoreAt]; split_ifs <;> simpa
  evidence i h := by
    have hev := hr.rest
    simp only [Tables.withoutReferences, Tables.mk.injEq, true_and] at hev
    rw [hev.right.left]
    exact h
  aliases i h := by rw [hr.aliases, restoreAliasAt]; split_ifs <;> simpa
  identifiers i h := by rw [hr.identifiers, restoreIdentifierAt]; split_ifs <;> simpa
  extractions i h := by rw [hr.extractions, restoreExtractionAt]; split_ifs <;> simpa
  entities := by
    have hen := hr.rest
    simp only [Tables.withoutReferences, Tables.mk.injEq, true_and] at hen
    exact hen.left

theorem restore_of_restores {u : Undo} {db' : Store} {rel : Option Relationship}
    (h : Restores u.fst r now db' rel) : ∃ u', Undo.restore now u r = .ok u' := by
  have h := restoreReference_eq_ok.mpr h
  exact ⟨_, bind_eq_ok.mpr ⟨_, h, rfl⟩⟩

variable {σ' : Store} {ctx : Context} {h : MergeHistory} (he : Executed σ σ' survivor merged ctx h)
include he

theorem Undoable.restore_progress {u : Undo} (hu : Undoable σ survivor merged u.fst)
    (hr : r ∈ h.repointedReferences) (now : Timestamp) :
    ∃ u', Undo.restore now u r = .ok u' ∧ Undoable σ survivor merged u'.fst := by
  suffices ∃ u', Undo.restore now u r = .ok u' by
    have ⟨u', h'⟩ := this
    refine ⟨u', h', hu.restoring <| Undo.restore_restored h' |>.restoring fun ht row hg => ?_⟩
    have ⟨rel, hm, hf, hi, hc⟩ := he.relationship_reference hr ht
    have ⟨row', hg', hk⟩ := hu.repointed rel hm hf
    obtain rfl : row = row' := Option.some.inj <| hg.symm.trans <| hi ▸ hg'
    exact ⟨rel, hm, hi.symm, hc now ▸ hk now⟩
  obtain ⟨rel, hm, hf, hr'⟩ | ⟨a, hm, ha, rfl⟩ | ⟨a, hm, ha, rfl⟩ | ⟨a, hm, ha, rfl⟩ :=
    he.references r |>.mp hr
  case inl =>
    have ⟨ht, hl, _⟩ := fate_eq_repointed.mp hf
    obtain rfl := mem_relationshipReference ht hl |>.mp hr'
    have ⟨row, hg, hk⟩ := hu.repointed rel hm hf
    have hi : rel.id = row.id := (Table.get?_key hg).symm
    have ha := hu.admits hm ht (x := restoreEnd merged.id rel now row)
      (by rw [hi]; unfold restoreEnd; split_ifs <;> rfl) (hk now)
    rw [← restoreColumn_repointed] at ha
    have ⟨_, hp⟩ := Store.exists_putRelationship ha
    exact restore_of_restores <| .relationship rfl (ite_eq_or_eq ..) hg hp
  case inr.inl =>
    have ⟨row, hg⟩ := Option.isSome_iff_exists.mp <| hu.aliases a hm ha
    have ⟨_, hp⟩ := Store.exists_putEntityAlias (a := { row with entityId := merged.id }) hu.merged
    exact restore_of_restores <| .entityAlias rfl rfl hg hp
  case inr.inr.inl =>
    have ⟨row, hg⟩ := Option.isSome_iff_exists.mp <| hu.identifiers a hm ha
    have hr := u.fst.identifier_natural.admits (a := { row with entityId := merged.id })
      (Table.get?_mem hg) rfl rfl
    have ⟨_, hp⟩ := Store.exists_putEntityIdentifier hr hu.merged
    exact restore_of_restores <| .entityIdentifier rfl rfl hg hp
  case inr.inr.inr =>
    have ⟨row, hg⟩ := Option.isSome_iff_exists.mp <| hu.extractions a hm ha
    have ⟨_, hp⟩ := Store.exists_putEntityExtraction (x := { row with entityId := merged.id }) hu.merged
    exact restore_of_restores <| .entityExtraction rfl rfl hg hp

end Restore

section Unmerge

variable {now : Timestamp} {mr : MergedRelationship}

theorem returnEvidence_progress {a : RelationshipId} {ids : List RelationshipEvidenceId}
    (ha : (τ.relationships.get? a).isSome)
    (hi : ∀ i ∈ ids, (τ.relationshipEvidence.get? i).isSome) :
    ∃ τ', ids.foldlM (Undo.returnEvidence a) τ = .ok τ' := by
  have ⟨τ', h, _⟩ := List.foldlM_progress (f := Undo.returnEvidence a) (b := τ) (l := ids)
    (I := fun ids τ => (τ.relationships.get? a).isSome ∧
      ∀ i ∈ ids, (τ.relationshipEvidence.get? i).isSome) ⟨ha, hi⟩ fun i ids τ ⟨ha, hi⟩ => by
    have ⟨e, hg⟩ := Option.isSome_iff_exists.mp <| hi i List.mem_cons_self
    have ⟨τ', hp⟩ := τ.exists_putRelationshipEvidence (e := { e with relationshipId := a }) ha
      fun j hj => τ.evidence_raw e (Table.get?_mem hg) j hj
    have ⟨_, _, ht⟩ := Store.putRelationshipEvidence_eq_ok.mp hp
    have hp' : Undo.returnEvidence a τ i = .ok τ' := by
      simp [Undo.returnEvidence, Store.getRelationshipEvidence, hg, orThrow, hp]
    refine ⟨τ', hp', by simpa [ht] using ha, fun j hj => ?_⟩
    rw [ht]
    exact Table.isSome_get?_put <| hi j <| List.mem_cons_of_mem _ hj
  exact ⟨τ', h⟩

theorem Unmerged.restoring (hm : Unmerged τ τ' mr now)
    (ha : mr.absorbedSnapshot ∈ σ.relationships) : Restoring σ τ τ' where
  relationships i row' hg := by
    rw [hm.relationships, unmergeAt] at hg
    have hv {row : Relationship} (hv : (if mr.absorbedSnapshot.id = i then some mr.absorbedSnapshot
        else τ.relationships.get? i) = some row) :
        (∃ r ∈ σ.relationships, r.id = i ∧ row.naturalKey = r.naturalKey) ∨
          τ.relationships.get? i = some row := by
      split_ifs at hv with h
      · exact .inl ⟨_, ha, h, by simp_all⟩
      · exact .inr hv
    split at hg
    case h_1 b pre _ _ =>
      by_cases hb : b = i
      case pos =>
        rw [if_pos hb] at hg
        obtain ⟨row, hrow, he⟩ := Option.map_eq_some_iff.mp hg
        subst he
        exact (hv hrow).imp_right fun h => ⟨row, h, rfl⟩
      case neg =>
        rw [if_neg hb] at hg
        exact (hv hg).imp_right fun h => ⟨_, h, rfl⟩
    case h_2 => exact (hv hg).imp_right fun h => ⟨_, h, rfl⟩
  kept i h := by
    rw [hm.relationships, unmergeAt]
    split
    all_goals split_ifs <;> simp [h]
  evidence i h := by rw [hm.evidence, unmergeEvidenceAt]; split_ifs <;> simpa
  aliases i h := by
    have hr := hm.rest
    simp only [Tables.withoutRelationships, Tables.mk.injEq] at hr
    rwa [hr.right.left]
  identifiers i h := by
    have hr := hm.rest
    simp only [Tables.withoutRelationships, Tables.mk.injEq] at hr
    rwa [hr.right.right.left]
  extractions i h := by
    have hr := hm.rest
    simp only [Tables.withoutRelationships, Tables.mk.injEq] at hr
    rwa [hr.right.right.right.left]
  entities := by
    have hr := hm.rest
    simp only [Tables.withoutRelationships, Tables.mk.injEq] at hr
    exact hr.left

variable {σ' : Store} {ctx : Context} {h : MergeHistory} (he : Executed σ σ' survivor merged ctx h)
include he

theorem Undoable.unmerge_progress (hne : merged.id ≠ survivor.id) {u : Undo}
    (hu : Undoable σ survivor merged u.fst) (hmr : mr ∈ h.mergedRelationships) (id : MergeHistoryId)
    (now : Timestamp) :
    ∃ u', Undo.unmerge id now u mr = .ok u' ∧ Undoable σ survivor merged u'.fst := by
  suffices ∃ u', Undo.unmerge id now u mr = .ok u' by
    have ⟨u', h'⟩ := this
    refine ⟨u', h', hu.restoring <| Undo.unmerge_unmerged h' |>.restoring ?_⟩
    obtain ⟨r, hm, _, rfl⟩ | ⟨a, hm, _, _, rfl⟩ := he.entries mr |>.mp hmr
    all_goals exact hm
  obtain ⟨r, hm, hf, rfl⟩ | ⟨a, hm, b, hf, rfl⟩ := he.entries mr |>.mp hmr
  case inl =>
    have ⟨ht, _⟩ := fate_eq_selfLoop.mp hf
    have ⟨_, hp⟩ := Store.exists_putRelationship <| hu.admits hm ht rfl rfl
    exact ⟨_, bind_eq_ok.mpr ⟨_, storage_eq_ok.mpr hp, rfl⟩⟩
  case inr =>
    have ⟨ht, _⟩ := fate_eq_absorbed σ.relationship_natural |>.mp hf
    have ⟨hb, hfb⟩ := fate_absorbs_of_absorbed σ.relationship_natural hne hm hf
    have ⟨db₁, h₁⟩ := Store.exists_putRelationship <| hu.admits hm ht rfl rfl
    have ⟨_, ht₁⟩ := Store.putRelationship_eq_ok.mp h₁
    have hmoved : ∀ i ∈ (collisionEntry σ ⟨a, b⟩).movedEvidenceIds,
        (db₁.relationshipEvidence.get? i).isSome := fun i hi => by
      have ⟨e, hg, hr⟩ := he.mem_movedEvidenceIds hm hf |>.mp hi
      have ⟨hme, hie⟩ := Table.get?_eq_some.mp hg
      have := hu.evidence e hme a hm b hr.symm hf
      simpa [ht₁, ← hie] using this
    have ⟨db₂, h₂⟩ := returnEvidence_progress (a := a.id) (by simp [ht₁]) hmoved
    have ⟨⟨t, ht₂, _⟩, _⟩ := Undo.returnEvidence_foldlM h₂
    have ⟨row, hg⟩ : ∃ row, db₂.relationships.get? b.id = some row := by
      rw [← Option.isSome_iff_exists, ht₂, ht₁]
      exact Table.isSome_get?_put <| hu.absorber b hb a hfb
    have ⟨db₃, h₃⟩ := Store.exists_putRelationship <| db₂.relationship_natural.admits
      (a := Undo.restoredTo row (Tx.snapshotOf b) now) (Table.get?_mem hg) rfl rfl
    have hs : Undo.unmerge id now u (collisionEntry σ ⟨a, b⟩) = _ :=
      bind_eq_ok.mpr ⟨db₁, storage_eq_ok.mpr h₁, bind_eq_ok.mpr ⟨db₂, h₂, bind_eq_ok.mpr
        ⟨row, orThrow_eq_ok.mpr hg, bind_eq_ok.mpr ⟨_, rfl, bind_eq_ok.mpr
          ⟨db₃, storage_eq_ok.mpr h₃, rfl⟩⟩⟩⟩⟩
    exact ⟨_, hs⟩

end Unmerge

-- A merge can be undone in every store which offers what it takes.
theorem Undoable.undoInTx_progress {σ' : Store} {ctx : Context} {h : MergeHistory}
    (he : Executed σ σ' survivor merged ctx h) (hne : merged.id ≠ survivor.id)
    (hu : Undoable σ survivor merged τ) (now : Timestamp) : ∃ u, undoInTx τ h now = .ok u := by
  have ⟨u₁, h₁, _, hu₁⟩ := List.foldlM_progress (f := Undo.restore now) (b := (τ, []))
    (l := h.repointedReferences.reverse)
    (I := fun l u => l ⊆ h.repointedReferences ∧ Undoable σ survivor merged u.fst)
    ⟨by simp, hu⟩ fun r l u ⟨hl, hu⟩ => by
      have ⟨u', h', hu'⟩ := hu.restore_progress he (hl List.mem_cons_self) now
      exact ⟨u', h', fun _ hm => hl (List.mem_cons_of_mem _ hm), hu'⟩
  have ⟨u₂, h₂, _, hu₂⟩ := List.foldlM_progress (f := Undo.unmerge h.id now) (b := u₁)
    (l := h.mergedRelationships.reverse)
    (I := fun l u => l ⊆ h.mergedRelationships ∧ Undoable σ survivor merged u.fst)
    ⟨by simp, hu₁⟩ fun mr l u ⟨hl, hu⟩ => by
      have ⟨u', h', hu'⟩ := hu.unmerge_progress he hne (hl List.mem_cons_self) h.id now
      exact ⟨u', h', fun _ hm => hl (List.mem_cons_of_mem _ hm), hu'⟩
  have ⟨e, hg⟩ := Option.isSome_iff_exists.mp hu₂.merged
  have ⟨db₁, hp⟩ := Store.exists_putEntity (e := { e with mergedInto := none })
    (u₂.fst.entity_natural.admits (Table.get?_mem hg) rfl rfl) nofun
  have ⟨_, _, ht⟩ := Store.putEntity_eq_ok.mp hp
  have ⟨db₂, hp'⟩ := db₁.exists_putMergeHistory (h := { h with undoneAt := some now }) <| by
    rw [ht]
    exact Table.isSome_get?_put <| he.survivorId ▸ hu₂.survivor
  exact ⟨_, bind_eq_ok.mpr ⟨u₁, h₁, bind_eq_ok.mpr ⟨u₂, h₂, bind_eq_ok.mpr
    ⟨e, orThrow_eq_ok.mpr (he.mergedId ▸ hg), bind_eq_ok.mpr ⟨db₁, storage_eq_ok.mpr hp,
      bind_eq_ok.mpr ⟨db₂, storage_eq_ok.mpr hp', rfl⟩⟩⟩⟩⟩⟩

end Merge
