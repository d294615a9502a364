import OsintCore.Merge.Theorems.Twice

namespace Merge

namespace Twice

variable {σ₀ σ₁ σ₂ σ₃ σ₄ : Store} {s a b : Entity} {c₁ c₂ : Context} {h₁ h₂ : MergeHistory}
  {now now' : Timestamp} (ht : Twice σ₀ σ₁ σ₂ s a b c₁ c₂ h₁ h₂)
include ht

section Fifo

variable (hu₁ : Undone σ₂ σ₃ h₁ now) (hu₂ : Undone σ₃ σ₄ h₂ now')
  (hn : ¬Adjacent σ₀ a.id b.id)
include hu₁ hu₂

-- What both undos make of the rows of the two stores before the merges.
theorem fifo_relationships (i : Uuid) : σ₄.relationships.get? i =
    revertedRelationship σ₁.relationships b.id s.id now' i
      (revertedRelationship σ₀.relationships a.id s.id now i
        ((σ₁.relationships.get? i).bind
          (mergedRelationship σ₁.relationships b.id s.id c₂.now))) := by
  rw [hu₂.relationships, ht.second.reverted_relationships ht.ne_bs, hu₁.relationships,
    ht.first.reverted_relationships ht.ne_as, ht.second.relationships]

include hn

-- The aggregates of a shared absorber are left as the first merge has made them.
theorem fifo_shared {x y r : Relationship} (hr : r ∈ σ₀.relationships)
    (hx : fate σ₀.relationships a.id s.id r = .absorbs x)
    (hy : fate σ₀.relationships b.id s.id r = .absorbs y) :
    ∃ row, σ₄.relationships.get? r.id = some row ∧
      Tx.snapshotOf row = Tx.snapshotOf (Tx.absorbedInto x r c₁.now) := by
  have hg : σ₀.relationships.get? r.id = some r := Table.mem_iff_get?.mp hr
  have hg₁ : σ₁.relationships.get? r.id = some (Tx.absorbedInto x r c₁.now) := by
    simp [ht.first.relationships, hg, mergedRelationship, hx]
  have hy₁ := ht.shared_iff hn (x := x) |>.mpr hy
  rw [ht.fifo_relationships hu₁ hu₂, revertedRelationship, revertedRelationship, hg, hg₁]
  simp only [Option.bind_some, mergedRelationship, hx, hy₁]
  exact ⟨_, rfl, rfl⟩

theorem fifo_same (i : Uuid) (hs : ∀ x y r, σ₀.relationships.get? i = some r →
      fate σ₀.relationships a.id s.id r = .absorbs x →
      fate σ₀.relationships b.id s.id r = .absorbs y →
      Tx.snapshotOf (Tx.absorbedInto x r c₁.now) = Tx.snapshotOf r) :
    Option.Rel Relationship.Same (σ₀.relationships.get? i) (σ₄.relationships.get? i) := by
  rw [ht.fifo_relationships hu₁ hu₂]
  have hr₁ := ht.first.relationships i
  cases hr : σ₀.relationships.get? i
  case none =>
    rw [hr] at hr₁
    simp [revertedRelationship, hr, hr₁]
  case some r =>
    have hm := Table.get?_mem hr
    rw [hr, Option.bind_some] at hr₁
    cases hf : fate σ₀.relationships a.id s.id r
    case kept =>
      simp only [mergedRelationship, hf] at hr₁
      simp only [revertedRelationship, hr, hr₁, hf, Option.bind_some, mergedRelationship]
      cases hf₂ : fate σ₁.relationships b.id s.id r
      case repointed =>
        obtain ⟨ht, hl, _⟩ := fate_eq_repointed.mp hf₂
        simp only [Option.map_some, restoreEnd_repointedRow ht hl]
        exact .some rfl
      all_goals exact .some rfl
    case repointed =>
      obtain ⟨ha, hl, _⟩ := fate_eq_repointed.mp hf
      have hf₂ := ht.second_fate hn (repointedRow a.id s.id c₁.now r) hm (by simp [hf])
        (by simp only [mergedRelationship, hf])
      simp only [mergedRelationship, hf] at hr₁
      simp only [revertedRelationship, hr, hr₁, hf, Option.bind_some, mergedRelationship]
      obtain hf₂ | ⟨y, hf₂⟩ := hf₂
      all_goals simp only [hf₂, Option.map_some, restoreEnd_repointedRow ha hl,
        restoredTo_restoreEnd_absorbedInto]
      all_goals exact .some rfl
    case absorbs x =>
      simp only [mergedRelationship, hf] at hr₁
      have hf₂ := ht.second_fate hn (Tx.absorbedInto x r c₁.now) hm (by simp [hf])
        (by simp only [mergedRelationship, hf])
      simp only [revertedRelationship, hr, hr₁, hf, Option.bind_some, mergedRelationship]
      obtain hf₂ | ⟨y, hf₂⟩ := hf₂
      case inl =>
        simp only [hf₂]
        exact .some rfl
      case inr =>
        have hs := hs x y r hr hf <| ht.shared_iff hn |>.mp hf₂
        simp only [hf₂, hs]
        exact .some rfl
    all_goals
      simp only [mergedRelationship, hf] at hr₁
      simp only [revertedRelationship, hr, hr₁, hf]
      exact rel_same_refl

theorem fifo_evidence : σ₄.relationshipEvidence =
    σ₀.relationshipEvidence.filter (!lost σ₀ σ₁ s.id a.id b.id ·) := by
  ext1 i
  rw [hu₂.evidence, ht.second.reverted_evidence, hu₁.evidence, ht.first.reverted_evidence,
    ht.second.evidence, ht.first.evidence, Table.get?_filter]
  have he₁ := ht.first.evidence i
  cases he : σ₀.relationshipEvidence.get? i
  case none =>
    rw [he] at he₁
    simp [revertedEvidence, he, he₁]
  case some e =>
    obtain ⟨r, hr⟩ : ∃ r, σ₀.relationships.get? e.relationshipId = some r :=
      Option.isSome_iff_exists.mp <| σ₀.evidence_relationship e (Table.get?_mem he) _ rfl
    have hm := Table.get?_mem hr
    have hr₁ := ht.first.relationships e.relationshipId
    have hl := ofSelfLoop_iff (m := a.id) (s := s.id) hr
    rw [hr, Option.bind_some] at hr₁
    simp only [he, Option.bind_some, mergedEvidence, hr, Option.map_some] at he₁
    cases hf : fate σ₀.relationships a.id s.id r
    case selfLoop =>
      have hl : ofSelfLoop σ₀ a.id s.id e = true := by rw [hl, hf]
      simp only [hf] at he₁
      simp [revertedEvidence, he, he₁, hr, hf, mergedEvidence, lost, hl, Option.filter]
    case absorbed j =>
      have hl : ofSelfLoop σ₀ a.id s.id e = false := by simpa [hf] using hl
      obtain ⟨hj, hfj⟩ := fate_absorbs_of_absorbed σ₀.relationship_natural ht.ne_as hm hf
      have hgj : σ₀.relationships.get? j.id = some j := Table.mem_iff_get?.mp hj
      have hj₁ : σ₁.relationships.get? j.id = some (Tx.absorbedInto r j c₁.now) := by
        simp [ht.first.relationships, hgj, mergedRelationship, hfj]
      have hf₂ := ht.second_fate hn (Tx.absorbedInto r j c₁.now) hj (by simp [hfj])
        (by simp only [mergedRelationship, hfj])
      simp only [hf] at he₁
      simp only [mergedRelationship, hf] at hr₁
      have hl₁ : ofSelfLoop σ₁ b.id s.id e = false := by simp [ofSelfLoop, hr₁]
      obtain hf₂ | ⟨y, hf₂⟩ := hf₂
      all_goals
        simp [revertedEvidence, he, he₁, hr, hf, mergedEvidence, lost, hl, hl₁, Option.filter, hj₁, hf₂]
        rfl
    all_goals
      have hl : ofSelfLoop σ₀ a.id s.id e = false := by simpa [hf] using hl
      simp only [hf] at he₁
      simp only [mergedRelationship, hf] at hr₁
      obtain ⟨r₁, hr₁⟩ : ∃ r₁, σ₁.relationships.get? e.relationshipId = some r₁ := ⟨_, hr₁⟩
      have hl₁ := ofSelfLoop_iff (m := b.id) (s := s.id) hr₁
      cases hf₂ : fate σ₁.relationships b.id s.id r₁
      all_goals
        simp_all [revertedEvidence, mergedEvidence, lost, Option.filter, moveTo]

omit hn in
theorem fifo_entities : σ₄.entities = σ₀.entities := by
  have ⟨a', hga, hpa⟩ := hu₁.entities
  have ⟨b', hgb, hpb⟩ := hu₂.entities
  have ha : a' = { a with mergedInto := some s.id } := by
    simpa [ht.first.mergedId, ht.second.entities, ht.first.entities, ht.ne_ab.symm, eq_comm] using hga
  have hb : b' = { b with mergedInto := some s.id } := by
    simpa [ht.second.mergedId, hpa, ha, ht.second.entities, ht.ne_ab, eq_comm] using hgb
  ext1 i
  simp only [hpb, hpa, ha, hb, ht.second.entities, ht.first.entities, Table.get?_put, Entity.key_eq]
  split_ifs with hb ha
  · rw [← hb, ht.get_b, ← ht.b_unmerged]
  · rw [← ha, ht.get_a, ← ht.a_unmerged]
  · rfl

omit hn in
theorem fifo_aliases : σ₄.entityAliases = σ₀.entityAliases := by
  ext1 i
  rw [hu₂.aliases, ht.second.reverted_aliases, hu₁.aliases, ht.first.reverted_aliases,
    ht.second.aliases, ht.first.aliases]
  have hbs := ht.ne_bs.symm
  cases σ₀.entityAliases.get? i
  case none   => rfl
  case some x =>
    by_cases ha : x.entityId = a.id
    case pos => simp [← ha, hbs]
    case neg =>
      by_cases hb : x.entityId = b.id
      · simp [ha, ← hb]
      · simp [ha, hb]

omit hn in
theorem fifo_identifiers : σ₄.entityIdentifiers = σ₀.entityIdentifiers := by
  ext1 i
  rw [hu₂.identifiers, ht.second.reverted_identifiers, hu₁.identifiers, ht.first.reverted_identifiers,
    ht.second.identifiers, ht.first.identifiers]
  have hbs := ht.ne_bs.symm
  cases σ₀.entityIdentifiers.get? i
  case none   => rfl
  case some x =>
    by_cases ha : x.entityId = a.id
    case pos => simp [← ha, hbs]
    case neg =>
      by_cases hb : x.entityId = b.id
      · simp [ha, ← hb]
      · simp [ha, hb]

omit hn in
theorem fifo_extractions : σ₄.entityExtractions = σ₀.entityExtractions := by
  ext1 i
  rw [hu₂.extractions, ht.second.reverted_extractions, hu₁.extractions, ht.first.reverted_extractions,
    ht.second.extractions, ht.first.extractions]
  have hbs := ht.ne_bs.symm
  cases σ₀.entityExtractions.get? i
  case none   => rfl
  case some x =>
    by_cases ha : x.entityId = a.id
    case pos => simp [← ha, hbs]
    case neg =>
      by_cases hb : x.entityId = b.id
      · simp [ha, ← hb]
      · simp [ha, hb]

end Fifo

section Progress

variable (hn : ¬Adjacent σ₀ a.id b.id)
include hn

-- The second merge keeps what the first one has repointed, or lets it absorb another relationship.
theorem second_get? {r : Relationship} (r₁ : Relationship) (hr : r ∈ σ₀.relationships)
    (hf : fate σ₀.relationships a.id s.id r ≠ .kept)
    (hm : mergedRelationship σ₀.relationships a.id s.id c₁.now r = some r₁) :
    ∃ row, σ₂.relationships.get? r.id = some row ∧ row.naturalKey = r₁.naturalKey := by
  have hg : σ₀.relationships.get? r.id = some r := Table.mem_iff_get?.mp hr
  rw [ht.second.relationships, ht.first.relationships, hg, Option.bind_some, hm, Option.bind_some]
  obtain hf₂ | ⟨y, hf₂⟩ := ht.second_fate hn r₁ hr hf hm
  all_goals
    simp only [mergedRelationship, hf₂]
    exact ⟨_, rfl, rfl⟩

omit hn in
theorem not_touches_a {r : Relationship} (hr : r ∈ σ₂.relationships) : ¬r.Touches a.id := by
  intro ha
  have hg := Table.mem_iff_get?.mp hr
  rw [ht.second.relationships] at hg
  have ⟨r₁, hr₁, hg⟩ := Option.bind_eq_some_iff.mp hg
  have hn₁ := ht.first.not_touches ht.ne_as (Table.get?_mem hr₁)
  unfold mergedRelationship at hg
  split at hg
  case h_1 => exact hn₁ <| Option.some.inj hg ▸ ha
  case h_4 =>
    obtain h | ⟨h, _⟩ := repointedRow_touches (Option.some.inj hg ▸ ha)
    · exact ht.ne_as h
    · exact hn₁ h
  case h_5 =>
    obtain rfl := Option.some.inj hg
    exact hn₁ ha
  all_goals simp at hg

theorem undoable_first : Undoable σ₀ s a σ₂ where
  origin r hr h := absurd h <| ht.not_touches_a hr
  repointed r hr hf := by
    obtain ⟨ha, hl, _⟩ := fate_eq_repointed.mp hf
    obtain ⟨row, hg, hk⟩ := ht.second_get? hn (repointedRow a.id s.id c₁.now r) hr (by simp [hf])
      (by simp only [mergedRelationship, hf])
    refine ⟨row, hg, fun now => (restoreEnd_naturalKey_congr now now hk).trans ?_⟩
    rw [restoreEnd_repointedRow ha hl]
    rfl
  absorber j hj x hf := by
    obtain ⟨row, hg, _⟩ := ht.second_get? hn (Tx.absorbedInto x j c₁.now) hj (by simp [hf])
      (by simp only [mergedRelationship, hf])
    simp [hg]
  evidence e he r hr j hi hf := by
    have hge : σ₀.relationshipEvidence.get? e.id = some e := Table.mem_iff_get?.mp he
    have hgr : σ₀.relationships.get? r.id = some r := Table.mem_iff_get?.mp hr
    obtain ⟨hj, hfj⟩ := fate_absorbs_of_absorbed σ₀.relationship_natural ht.ne_as hr hf
    have hgj : σ₀.relationships.get? j.id = some j := Table.mem_iff_get?.mp hj
    have hj₁ : σ₁.relationships.get? j.id = some (Tx.absorbedInto r j c₁.now) := by
      simp [ht.first.relationships, hgj, mergedRelationship, hfj]
    have hf₂ := ht.second_fate hn (Tx.absorbedInto r j c₁.now) hj (by simp [hfj])
      (by simp only [mergedRelationship, hfj])
    rw [ht.second.evidence, ht.first.evidence, hge, Option.bind_some]
    simp only [mergedEvidence, ← hi, hgr, Option.map_some, hf, Option.bind_some, hj₁]
    obtain hf₂ | ⟨y, hf₂⟩ := hf₂ <;> simp [hf₂]
  aliases x hx _ := by
    have hg : σ₀.entityAliases.get? x.id = some x := Table.mem_iff_get?.mp hx
    simp [ht.second.aliases, ht.first.aliases, hg]
  identifiers x hx _ := by
    have hg : σ₀.entityIdentifiers.get? x.id = some x := Table.mem_iff_get?.mp hx
    simp [ht.second.identifiers, ht.first.identifiers, hg]
  extractions x hx _ := by
    have hg : σ₀.entityExtractions.get? x.id = some x := Table.mem_iff_get?.mp hx
    simp [ht.second.extractions, ht.first.extractions, hg]
  merged   := by simp [ht.second.entities, ht.first.entities, ht.ne_ab.symm]
  survivor := by
    rw [ht.second.entities, ht.first.entities]
    exact Table.isSome_get?_put <| Table.isSome_get?_put <| by simp [ht.get_s]

theorem undoable_second (hu₁ : Undone σ₂ σ₃ h₁ now) : Undoable σ₁ s b σ₃ := by
  have hu := ht.second.undoable ht.ne_bs (by simp [ht.first.entities, ht.ne_as, ht.get_s])
  have hr₃ (i : Uuid) : σ₃.relationships.get? i =
      revertedRelationship σ₀.relationships a.id s.id now i (σ₂.relationships.get? i) := by
    rw [hu₁.relationships, ht.first.reverted_relationships ht.ne_as]
  constructor
  case origin =>
    intro r hr hb
    have hg : σ₃.relationships.get? r.id = some r := Table.mem_iff_get?.mp hr
    have hv {v : Relationship} (hv : σ₂.relationships.get? r.id = some v) : ¬v.Touches b.id :=
      ht.second.not_touches ht.ne_bs (Table.get?_mem hv)
    rw [hr₃, revertedRelationship] at hg
    cases hr₀ : σ₀.relationships.get? r.id
    case none => exact absurd hb <| hv (by simpa only [hr₀] using hg)
    case some r₀ =>
      have hm₀ := Table.get?_mem hr₀
      cases hf : fate σ₀.relationships a.id s.id r₀
      all_goals simp only [hr₀, hf, Option.map_eq_some_iff, Option.some.injEq] at hg
      case kept     => exact absurd hb <| hv hg
      case selfLoop => exact absurd ⟨r₀, hm₀, (fate_eq_selfLoop.mp hf).left, hg ▸ hb⟩ hn
      case absorbed =>
        obtain ⟨ha, _⟩ := fate_eq_absorbed σ₀.relationship_natural |>.mp hf
        exact absurd ⟨r₀, hm₀, ha, hg ▸ hb⟩ hn
      case repointed =>
        obtain ⟨v, hgv, hg⟩ := hg
        exact absurd ((restoreEnd_touches (hg ▸ hb)).resolve_left ht.ne_ab.symm) (hv hgv)
      case absorbs =>
        obtain ⟨v, hgv, hg⟩ := hg
        exact absurd (show v.Touches b.id by subst hg; exact hb) (hv hgv)
  case repointed =>
    intro r hr hf
    obtain ⟨row, hg, hk⟩ := hu.repointed r hr hf
    obtain ⟨hb, _⟩ := fate_eq_repointed.mp hf
    have hm := ht.mem_iff hn hb |>.mp hr
    have hgr : σ₀.relationships.get? r.id = some r := Table.mem_iff_get?.mp hm
    refine ⟨row, ?_, hk⟩
    simp [hr₃, revertedRelationship, hgr, ht.kept_of_touches hn hm hb, hg]
  case absorber =>
    intro j hj y hf
    rw [hr₃]
    exact isSome_revertedRelationship <| hu.absorber j hj y hf
  case evidence =>
    intro e he r hr j hi hf
    rw [hu₁.evidence, ht.first.reverted_evidence, isSome_revertedEvidence]
    exact hu.evidence e he r hr j hi hf
  case aliases =>
    intro x hx hi
    have := hu.aliases x hx hi
    rw [hu₁.aliases, ht.first.reverted_aliases]
    split_ifs <;> simpa
  case identifiers =>
    intro x hx hi
    have := hu.identifiers x hx hi
    rw [hu₁.identifiers, ht.first.reverted_identifiers]
    split_ifs <;> simpa
  case extractions =>
    intro x hx hi
    have := hu.extractions x hx hi
    rw [hu₁.extractions, ht.first.reverted_extractions]
    split_ifs <;> simpa
  case merged =>
    obtain ⟨e, _, hp⟩ := hu₁.entities
    exact hp ▸ Table.isSome_get?_put hu.merged
  case survivor =>
    obtain ⟨e, _, hp⟩ := hu₁.entities
    exact hp ▸ Table.isSome_get?_put hu.survivor

end Progress

-- The first merge cannot be undone alone if its entity had a relationship with the other one: the
-- second merge has deleted that relationship, or its absorber, as a self-loop.
theorem not_adjacent (hu₁ : Undone σ₂ σ₃ h₁ now) : ¬Adjacent σ₀ a.id b.id := by
  rintro ⟨r, hr, ha, hb⟩
  have hg : σ₀.relationships.get? r.id = some r := Table.mem_iff_get?.mp hr
  have hgone (row : Relationship) (hg : σ₁.relationships.get? row.id = some row)
      (hk : row.naturalKey = repointedKey a.id s.id r) : σ₂.relationships.get? row.id = none := by
    have hf : fate σ₁.relationships b.id s.id row = .selfLoop :=
      fate_eq_selfLoop.mpr <| becomesLoop_of_repointedKey ht.ne_ab ht.ne_bs ha hb hk
    simp [ht.second.relationships, hg, mergedRelationship, hf]
  cases hf : fate σ₀.relationships a.id s.id r
  case repointed =>
    obtain ⟨ha, hl, _⟩ := fate_eq_repointed.mp hf
    have hm := ht.first.references _ |>.mpr <| .inl
      ⟨r, hr, hf, mem_relationshipReference ha hl |>.mpr rfl⟩
    have hs := hu₁.rows _ hm rfl
    have := hgone (repointedRow a.id s.id c₁.now r)
      (by simp [ht.first.relationships, hg, mergedRelationship, hf]) rfl
    simp_all [repointed]
  case absorbed j =>
    obtain ⟨hj, hfj⟩ := fate_absorbs_of_absorbed σ₀.relationship_natural ht.ne_as hr hf
    obtain ⟨_, _, _, hk⟩ := fate_eq_absorbed σ₀.relationship_natural |>.mp hf
    have hgj : σ₀.relationships.get? j.id = some j := Table.mem_iff_get?.mp hj
    have hs := hu₁.absorbers _ (ht.first.entries _ |>.mpr <| .inr ⟨r, hr, j, hf, rfl⟩) j.id rfl
    have := hgone (Tx.absorbedInto r j c₁.now)
      (by simp [ht.first.relationships, hgj, mergedRelationship, hfj]) hk
    rw [hu₁.relationships, ht.first.reverted_relationships ht.ne_as] at hs
    simp_all [revertedRelationship]
  case kept => exact (fate_eq_kept.mp hf).left ha
  case absorbs => exact (fate_eq_absorbs σ₀.relationship_natural |>.mp hf).left ha
  case selfLoop =>
    obtain ⟨_, hl⟩ := fate_eq_selfLoop.mp hf
    have := ht.ne_ab
    have := ht.ne_bs
    simp only [BecomesLoop, repointedEnds, Relationship.Touches] at *
    grind

end Twice

end Merge
