import OsintCore.Merge.Theorems.Undo

namespace Merge

-- The end of a relationship which a merge has repointed gets back to `m`.
def restoreEnd (m : EntityId) (r : Relationship) (now : Timestamp) (row : Relationship) :
    Relationship :=
  if r.sourceObjectId = m then { row with sourceObjectId := m, updatedAt := now }
  else { row with targetObjectId := m, updatedAt := now }

-- What undoing a merge makes of the row `v` with the id `i`, where `t` holds the relationships as
-- they were before that merge.
def revertedRelationship (t : Table Relationship) (m s : EntityId) (now : Timestamp) (i : Uuid)
    (v : Option Relationship) : Option Relationship :=
  match t.get? i with
  | none   => v
  | some r => match fate t m s r with
    | .kept                   => v
    | .selfLoop | .absorbed _ => some r
    | .repointed              => v.map (restoreEnd m r now)
    | .absorbs _              => v.map (Undo.restoredTo · (Tx.snapshotOf r) now)

def revertedEvidence (σ : Store) (m s : EntityId) (i : Uuid) (v : Option RelationshipEvidence) :
    Option RelationshipEvidence :=
  match σ.relationshipEvidence.get? i with
  | none   => v
  | some e => match (σ.relationships.get? e.relationshipId).map (fate σ.relationships m s) with
    | some (.absorbed _) => v.map (moveTo e.relationshipId)
    | _                  => v

section

variable {m s : EntityId} {now : Timestamp} {r row : Relationship}

@[simp]
theorem restoreEnd_idem :
    restoreEnd m r now (restoreEnd m r now row) = restoreEnd m r now row := by
  unfold restoreEnd; split_ifs <;> rfl

@[simp]
theorem restoredTo_idem {pre : AbsorberSnapshot} :
    Undo.restoredTo (Undo.restoredTo row pre now) pre now = Undo.restoredTo row pre now :=
  rfl

-- A relationship of `m` which does not become a self-loop has `m` at exactly one end.
theorem mem_relationshipReference (ht : r.Touches m) (hl : ¬BecomesLoop m s r)
    {ref : RepointedReference} : ref ∈ Tx.relationshipReference m r ↔
      ref = repointed "relationships" r.id
        (if r.sourceObjectId = m then "source_object_id" else "target_object_id") m := by
  simp only [BecomesLoop, repointedEnds] at hl
  by_cases h₁ : r.sourceObjectId = m
  case pos =>
    have h₂ : r.targetObjectId ≠ m := fun h₂ => by simp [h₁, h₂] at hl
    simp [Tx.relationshipReference, relationshipRepointColumn, h₁, h₂]
  case neg =>
    have h₂ : r.targetObjectId = m := ht.resolve_left h₁
    simp [Tx.relationshipReference, relationshipRepointColumn, h₁, h₂]

theorem table_of_mem_relationshipReference {ref : RepointedReference}
    (h : ref ∈ Tx.relationshipReference m r) : ref.table = "relationships" := by
  have ⟨_, _, h⟩ := List.mem_map.mp h
  exact h ▸ rfl

theorem restoreColumn_repointed : restoreColumn (repointed "relationships" r.id
      (if r.sourceObjectId = m then "source_object_id" else "target_object_id") m) now =
    restoreEnd m r now := by
  funext row
  unfold restoreEnd restoreColumn
  split_ifs <;> rfl

@[simp]
theorem unmergeAt_selfLoopEntry {i : Uuid} {v : Option Relationship} :
    unmergeAt now i v (selfLoopEntry r) = if r.id = i then some r else v :=
  rfl

@[simp]
theorem unmergeAt_collisionEntry {σ : Store} {i : Uuid} {v : Option Relationship} {c : Collision} :
    unmergeAt now i v (collisionEntry σ c) =
      if c.absorber.id = i then
        (if c.absorbed.id = i then some c.absorbed else v).map
          (Undo.restoredTo · (Tx.snapshotOf c.absorber) now)
      else if c.absorbed.id = i then some c.absorbed
      else v :=
  rfl

end

namespace Executed

variable {σ σ' : Store} {survivor merged : Entity} {ctx : Context} {h : MergeHistory}
  (he : Executed σ σ' survivor merged ctx h)
include he

-- The reference to a row of `relationships` belongs to a repointed relationship.
theorem relationship_reference {r : RepointedReference} (hr : r ∈ h.repointedReferences)
    (ht : r.table = "relationships") : ∃ rel ∈ σ.relationships,
      fate σ.relationships merged.id survivor.id rel = .repointed ∧ r.rowId = rel.id ∧
      ∀ now, restoreColumn r now = restoreEnd merged.id rel now := by
  obtain ⟨rel, hm, hf, hr⟩ | ⟨a, _, _, rfl⟩ | ⟨a, _, _, rfl⟩ | ⟨a, _, _, rfl⟩ :=
    he.references r |>.mp hr
  case inl =>
    have ⟨ht, hl, _⟩ := fate_eq_repointed.mp hf
    rw [mem_relationshipReference ht hl] at hr
    subst hr
    exact ⟨rel, hm, hf, rfl, fun _ => restoreColumn_repointed⟩
  all_goals simp [repointed] at ht

theorem reverted_references {now : Timestamp} (i : Uuid) (v : Option Relationship) :
    h.repointedReferences.reverse.foldl (restoreAt now i) v =
      match σ.relationships.get? i with
      | none   => v
      | some r => match fate σ.relationships merged.id survivor.id r with
        | .repointed => v.map (restoreEnd merged.id r now)
        | _          => v := by
  have hskip (hn : ∀ r ∈ σ.relationships, r.id = i →
      fate σ.relationships merged.id survivor.id r ≠ .repointed) :
      h.repointedReferences.reverse.foldl (restoreAt now i) v = v := by
    refine List.foldl_skip fun ref hr => if_neg fun ⟨ht, hi⟩ => ?_
    have ⟨rel, hm, hf, hid, _⟩ := he.relationship_reference (List.mem_reverse.mp hr) ht
    exact hn rel hm (hid.symm.trans hi) hf
  cases hr : σ.relationships.get? i
  case none =>
    exact hskip fun r hm hi => absurd hi <| Table.get?_eq_none.mp hr r hm
  case some r =>
    have ⟨hm, (hi : r.id = i)⟩ := Table.get?_eq_some.mp hr
    have huniq {x : Relationship} (hx : x ∈ σ.relationships) (hxi : x.id = i) : x = r :=
      Table.eq_of_key_eq hx hm (hxi.trans hi.symm)
    cases hf : fate σ.relationships merged.id survivor.id r
    case repointed =>
      have ⟨ht, hl, _⟩ := fate_eq_repointed.mp hf
      have hmem := he.references _ |>.mpr <| .inl
        ⟨r, hm, hf, mem_relationshipReference ht hl |>.mpr rfl⟩
      have hfold := List.foldl_map_idem (l := h.repointedReferences.reverse)
        (P := fun ref => ref.table = "relationships" ∧ ref.rowId = i)
        (u := fun ref => restoreColumn ref now) (g := restoreEnd merged.id r now)
        (fun _ => restoreEnd_idem) (fun ref hr ⟨ht, hri⟩ => by
          have ⟨rel, hrm, _, hid, hc⟩ := he.relationship_reference (List.mem_reverse.mp hr) ht
          rw [hc, huniq hrm (hid.symm.trans hri)]) v
      rw [if_pos ⟨_, List.mem_reverse.mpr hmem, rfl, hi⟩] at hfold
      simp only [hf]
      exact hfold
    all_goals
      simp only [hf]
      exact hskip fun x hx hxi => by simp [huniq hx hxi, hf]

theorem reverted_entries (hne : merged.id ≠ survivor.id) {now : Timestamp} (i : Uuid)
    (v : Option Relationship) :
    h.mergedRelationships.reverse.foldl (unmergeAt now i) v =
      match σ.relationships.get? i with
      | none   => v
      | some r => match fate σ.relationships merged.id survivor.id r with
        | .selfLoop | .absorbed _ => some r
        | .absorbs _              => v.map (Undo.restoredTo · (Tx.snapshotOf r) now)
        | _                       => v := by
  have hget {r : Relationship} (hm : r ∈ σ.relationships) (hi : r.id = i) :
      σ.relationships.get? i = some r := Table.get?_eq_some.mpr ⟨hm, hi⟩
  have hentry (mr) (hmr : mr ∈ h.mergedRelationships.reverse) :=
    he.entries mr |>.mp (List.mem_reverse.mp hmr)
  have habs {a b : Relationship} := fate_absorbs_of_absorbed σ.relationship_natural hne (a := a) (b := b)
  cases hr : σ.relationships.get? i
  case none =>
    refine List.foldl_skip fun mr hmr => ?_
    obtain ⟨r, hm, _, rfl⟩ | ⟨a, hm, b, hf, rfl⟩ := hentry mr hmr
    case inl => simp; grind
    case inr => simp; grind
  case some r =>
    have ⟨hm, (hi : r.id = i)⟩ := Table.get?_eq_some.mp hr
    cases hf : fate σ.relationships merged.id survivor.id r
    case selfLoop =>
      have hmr := he.entries _ |>.mpr <| .inl ⟨r, hm, hf, rfl⟩
      simp only [hf]
      refine List.foldl_idem (g := fun _ => some r) (fun _ => rfl) (fun mr hmr => ?_)
        ⟨_, List.mem_reverse.mpr hmr, by simp [hi]⟩
      obtain ⟨r, hm, _, rfl⟩ | ⟨a, hm, b, hf, rfl⟩ := hentry mr hmr
      all_goals simp; grind
    case absorbed b =>
      have hmr := he.entries _ |>.mpr <| .inr ⟨r, hm, b, hf, rfl⟩
      simp only [hf]
      refine List.foldl_idem (g := fun _ => some r) (fun _ => rfl) (fun mr hmr => ?_)
        ⟨_, List.mem_reverse.mpr hmr, by simp [hi]; grind⟩
      obtain ⟨r, hm, _, rfl⟩ | ⟨a, hm, b, hf, rfl⟩ := hentry mr hmr
      all_goals simp; grind
    case absorbs a =>
      have ⟨ha, hfa⟩ := fate_absorbed_of_absorbs σ.relationship_natural hne hm hf
      have hmr := he.entries _ |>.mpr <| .inr ⟨a, ha, r, hfa, rfl⟩
      simp only [hf]
      refine List.foldl_idem
        (g := Option.map (Undo.restoredTo · (Tx.snapshotOf r) now))
        (fun v => by simp [Function.comp_def]) (fun mr hmr => ?_)
        ⟨_, List.mem_reverse.mpr hmr, by simp [hi]; grind⟩
      obtain ⟨r, hm, _, rfl⟩ | ⟨a, hm, b, hf, rfl⟩ := hentry mr hmr
      all_goals simp; grind
    all_goals
      simp only [hf]
      refine List.foldl_skip fun mr hmr => ?_
      obtain ⟨r, hm, _, rfl⟩ | ⟨a, hm, b, hf, rfl⟩ := hentry mr hmr
      all_goals simp; grind

theorem reverted_relationships (hne : merged.id ≠ survivor.id) {now : Timestamp} (i : Uuid)
    (v : Option Relationship) :
    h.mergedRelationships.reverse.foldl (unmergeAt now i)
      (h.repointedReferences.reverse.foldl (restoreAt now i) v) =
    revertedRelationship σ.relationships merged.id survivor.id now i v := by
  rw [he.reverted_entries hne, he.reverted_references, revertedRelationship]
  cases σ.relationships.get? i
  case none   => rfl
  case some r => cases hf : fate σ.relationships merged.id survivor.id r <;> simp only [hf]

theorem mem_movedEvidenceIds {a b : Relationship} {i : Uuid} (ha : a ∈ σ.relationships)
    (hf : fate σ.relationships merged.id survivor.id a = .absorbed b) :
    i ∈ (collisionEntry σ ⟨a, b⟩).movedEvidenceIds ↔
      ∃ e, σ.relationshipEvidence.get? i = some e ∧ e.relationshipId = a.id := by
  simp only [collisionEntry, List.mem_map,
    Store.mem_listRelationshipEvidence (he.moved a ha b hf), Table.get?_eq_some]
  exact exists_congr fun _ => and_right_comm

theorem reverted_evidence (i : Uuid) (v : Option RelationshipEvidence) :
    h.mergedRelationships.reverse.foldl (unmergeEvidenceAt i) v =
      revertedEvidence σ merged.id survivor.id i v := by
  have hentry (mr) (hmr : mr ∈ h.mergedRelationships.reverse) :=
    he.entries mr |>.mp (List.mem_reverse.mp hmr)
  -- The entries which have moved the evidence.
  have hmoved {mr : MergedRelationship} (hmr : mr ∈ h.mergedRelationships.reverse)
      (hi : mr.absorberRelationshipId.isSome ∧ i ∈ mr.movedEvidenceIds) : ∃ e a b,
      σ.relationshipEvidence.get? i = some e ∧ σ.relationships.get? e.relationshipId = some a ∧
      fate σ.relationships merged.id survivor.id a = .absorbed b ∧
      mr.absorbedRelationshipId = e.relationshipId := by
    obtain ⟨r, _, _, rfl⟩ | ⟨a, ha, b, hf, rfl⟩ := hentry mr hmr
    case inl => simp [selfLoopEntry] at hi
    case inr =>
      have ⟨e, hge, hr⟩ := he.mem_movedEvidenceIds ha hf |>.mp hi.right
      exact ⟨e, a, b, hge, Table.get?_eq_some.mpr ⟨ha, hr.symm⟩, hf, hr.symm⟩
  have hskip (hn : ∀ e a b, σ.relationshipEvidence.get? i = some e →
      σ.relationships.get? e.relationshipId = some a →
      fate σ.relationships merged.id survivor.id a ≠ .absorbed b) :
      h.mergedRelationships.reverse.foldl (unmergeEvidenceAt i) v = v := by
    refine List.foldl_skip fun mr hmr => if_neg fun hi => ?_
    have ⟨e, a, b, hge, hga, hf, _⟩ := hmoved hmr hi
    exact hn e a b hge hga hf
  unfold revertedEvidence
  cases hge : σ.relationshipEvidence.get? i
  case none => exact hskip fun e _ _ h => by simp [hge] at h
  case some e =>
    cases hga : σ.relationships.get? e.relationshipId
    case none =>
      simp only [hga]
      exact hskip fun e' _ _ h₁ h₂ => by simp_all
    case some a =>
      simp only [hga, Option.map_some]
      cases hf : fate σ.relationships merged.id survivor.id a
      case absorbed b =>
        have ⟨ha, hi⟩ := Table.get?_eq_some.mp hga
        have hmr := he.entries _ |>.mpr <| .inr ⟨a, ha, b, hf, rfl⟩
        have hfold := List.foldl_map_idem (l := h.mergedRelationships.reverse)
          (P := fun mr => mr.absorberRelationshipId.isSome ∧ i ∈ mr.movedEvidenceIds)
          (u := fun mr => moveTo mr.absorbedRelationshipId) (g := moveTo e.relationshipId)
          (fun _ => rfl) (fun mr hmr hp => by
            have ⟨e', _, _, hge', _, _, hi⟩ := hmoved hmr hp
            simp_all) v
        rw [if_pos ⟨_, List.mem_reverse.mpr hmr, rfl,
          he.mem_movedEvidenceIds ha hf |>.mpr ⟨e, hge, hi.symm⟩⟩] at hfold
        exact hfold
      all_goals exact hskip fun e' a' b' h₁ h₂ h₃ => by simp_all

theorem previousValue_eq {r : RepointedReference} (hr : r ∈ h.repointedReferences) :
    r.previousValue = merged.id := by
  obtain ⟨rel, _, _, hr⟩ | ⟨a, _, _, rfl⟩ | ⟨a, _, _, rfl⟩ | ⟨a, _, _, rfl⟩ :=
    he.references r |>.mp hr
  case inl =>
    have ⟨_, _, hr⟩ := List.mem_map.mp hr
    exact hr ▸ rfl
  all_goals rfl

section Owners

variable (i : Uuid)

-- The rows of an entity which a history refers to are the ones which the merged entity had.

theorem alias_reference :
    (∃ r ∈ h.repointedReferences.reverse, r.table = "entity_aliases" ∧ r.rowId = i) ↔
      (σ.entityAliases.get? i).any (·.entityId = merged.id) := by
  simp only [List.mem_reverse, Option.any_eq_true, Table.get?_eq_some, decide_eq_true_iff]
  constructor
  case mp =>
    intro ⟨r, hr, ht, hi⟩
    obtain ⟨rel, _, _, hr⟩ | ⟨a, hm, hs, rfl⟩ | ⟨a, _, _, rfl⟩ | ⟨a, _, _, rfl⟩ :=
      he.references r |>.mp hr
    case inl => simp [table_of_mem_relationshipReference hr] at ht
    case inr.inl => exact ⟨a, ⟨hm, hi⟩, hs⟩
    all_goals simp [repointed] at ht
  case mpr =>
    intro ⟨a, ⟨hm, hi⟩, hs⟩
    exact ⟨_, he.references _ |>.mpr <| .inr <| .inl ⟨a, hm, hs, rfl⟩, rfl, hi⟩

theorem identifier_reference :
    (∃ r ∈ h.repointedReferences.reverse, r.table = "entity_identifiers" ∧ r.rowId = i) ↔
      (σ.entityIdentifiers.get? i).any (·.entityId = merged.id) := by
  simp only [List.mem_reverse, Option.any_eq_true, Table.get?_eq_some, decide_eq_true_iff]
  constructor
  case mp =>
    intro ⟨r, hr, ht, hi⟩
    obtain ⟨rel, _, _, hr⟩ | ⟨a, _, _, rfl⟩ | ⟨a, hm, hs, rfl⟩ | ⟨a, _, _, rfl⟩ :=
      he.references r |>.mp hr
    case inl => simp [table_of_mem_relationshipReference hr] at ht
    case inr.inr.inl => exact ⟨a, ⟨hm, hi⟩, hs⟩
    all_goals simp [repointed] at ht
  case mpr =>
    intro ⟨a, ⟨hm, hi⟩, hs⟩
    exact ⟨_, he.references _ |>.mpr <| .inr <| .inr <| .inl ⟨a, hm, hs, rfl⟩, rfl, hi⟩

theorem extraction_reference :
    (∃ r ∈ h.repointedReferences.reverse, r.table = "entity_extractions" ∧ r.rowId = i) ↔
      (σ.entityExtractions.get? i).any (·.entityId = merged.id) := by
  simp only [List.mem_reverse, Option.any_eq_true, Table.get?_eq_some, decide_eq_true_iff]
  constructor
  case mp =>
    intro ⟨r, hr, ht, hi⟩
    obtain ⟨rel, _, _, hr⟩ | ⟨a, _, _, rfl⟩ | ⟨a, _, _, rfl⟩ | ⟨a, hm, hs, rfl⟩ :=
      he.references r |>.mp hr
    case inl => simp [table_of_mem_relationshipReference hr] at ht
    case inr.inr.inr => exact ⟨a, ⟨hm, hi⟩, hs⟩
    all_goals simp [repointed] at ht
  case mpr =>
    intro ⟨a, ⟨hm, hi⟩, hs⟩
    exact ⟨_, he.references _ |>.mpr <| .inr <| .inr <| .inr ⟨a, hm, hs, rfl⟩, rfl, hi⟩

-- All references to a row give it back to the merged entity.
theorem reverted_owner {α : Type} {table : String} {u : EntityId → α → α} {P : Prop} [Decidable P]
    (hu : ∀ a, u merged.id (u merged.id a) = u merged.id a)
    (hr : (∃ r ∈ h.repointedReferences.reverse, r.table = table ∧ r.rowId = i) ↔ P) (v : Option α) :
    h.repointedReferences.reverse.foldl (fun v r =>
        if r.table = table ∧ r.rowId = i then v.map (u r.previousValue) else v) v =
      if P then v.map (u merged.id) else v := by
  rw [← if_congr hr rfl rfl]
  refine List.foldl_map_idem (u := fun r : RepointedReference => u r.previousValue) hu
    (fun r hr _ => ?_) v
  rw [he.previousValue_eq (List.mem_reverse.mp hr)]

theorem reverted_aliases (v : Option EntityAlias) :
    h.repointedReferences.reverse.foldl (restoreAliasAt i) v =
      if (σ.entityAliases.get? i).any (·.entityId = merged.id) then
        v.map fun a => { a with entityId := merged.id }
      else v :=
  he.reverted_owner i (u := fun id (a : EntityAlias) => { a with entityId := id })
    (fun _ => rfl) (he.alias_reference i) v

theorem reverted_identifiers (v : Option EntityIdentifier) :
    h.repointedReferences.reverse.foldl (restoreIdentifierAt i) v =
      if (σ.entityIdentifiers.get? i).any (·.entityId = merged.id) then
        v.map fun a => { a with entityId := merged.id }
      else v :=
  he.reverted_owner i (u := fun id (a : EntityIdentifier) => { a with entityId := id })
    (fun _ => rfl) (he.identifier_reference i) v

theorem reverted_extractions (v : Option EntityExtraction) :
    h.repointedReferences.reverse.foldl (restoreExtractionAt i) v =
      if (σ.entityExtractions.get? i).any (·.entityId = merged.id) then
        v.map fun a => { a with entityId := merged.id }
      else v :=
  he.reverted_owner i (u := fun id (a : EntityExtraction) => { a with entityId := id })
    (fun _ => rfl) (he.extraction_reference i) v

end Owners

end Executed

end Merge
