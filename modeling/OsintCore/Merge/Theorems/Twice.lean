import OsintCore.Merge.Theorems.RoundTrip
import OsintCore.Merge.Theorems.Dangling

namespace Merge

def Adjacent (σ : Store) (a b : EntityId) : Prop :=
  ∃ r ∈ σ.relationships, r.Touches a ∧ r.Touches b

-- The entity `a` is merged into `s`, and then the entity `b`.
structure Twice (σ₀ σ₁ σ₂ : Store) (s a b : Entity) (c₁ c₂ : Context) (h₁ h₂ : MergeHistory) :
    Prop where
  first      : Executed σ₀ σ₁ s a c₁ h₁
  second     : Executed σ₁ σ₂ s b c₂ h₂
  get_s      : σ₀.entities.get? s.id = some s
  get_a      : σ₀.entities.get? a.id = some a
  get_b      : σ₀.entities.get? b.id = some b
  s_unmerged : s.mergedInto = none
  a_unmerged : a.mergedInto = none
  b_unmerged : b.mergedInto = none
  ne_as      : a.id ≠ s.id
  ne_bs      : b.id ≠ s.id
  ne_ab      : a.id ≠ b.id

theorem touches_of_repointedKey {m s x : EntityId} {a r : Relationship}
    (hk : repointedKey m s a = r.naturalKey) (hr : r.Touches x) (hx : x ≠ s) : a.Touches x := by
  have ht : (repointedRow m s 0 a).Touches x := hr.of_naturalKey hk.symm
  simp only [repointedRow, repointedEnds, Relationship.Touches] at *
  grind

-- A relationship between `a` and `b` becomes one between `s` and `b`, and then a self-loop.
theorem becomesLoop_of_repointedKey {s a b : EntityId} {r row : Relationship} (hab : a ≠ b)
    (hbs : b ≠ s) (ha : r.Touches a) (hb : r.Touches b) (hk : row.naturalKey = repointedKey a s r) :
    row.Touches b ∧ BecomesLoop b s row := by
  simp only [Relationship.naturalKey, repointedKey, BecomesLoop, repointedEnds, Relationship.Touches,
    Prod.mk.injEq] at *
  grind

theorem isSome_revertedRelationship {t : Table Relationship} {m s : EntityId} {now : Timestamp}
    {i : Uuid} {v : Option Relationship} (h : v.isSome) :
    (revertedRelationship t m s now i v).isSome := by
  unfold revertedRelationship
  split
  · exact h
  · split <;> simp [h]

theorem isSome_revertedEvidence {σ : Store} {m s : EntityId} {i : Uuid}
    {v : Option RelationshipEvidence} : (revertedEvidence σ m s i v).isSome = v.isSome := by
  unfold revertedEvidence
  split
  · rfl
  · split <;> simp

theorem restoredTo_restoreEnd_absorbedInto {m : EntityId} {r row y : Relationship}
    {now now' now'' : Timestamp} :
    Undo.restoredTo (restoreEnd m r now (Tx.absorbedInto y row now'')) (Tx.snapshotOf row) now' =
      { restoreEnd m r now row with updatedAt := now' } := by
  unfold restoreEnd
  split_ifs <;> rfl

namespace Twice

variable {σ₀ σ₁ σ₂ σ₃ σ₄ : Store} {s a b : Entity} {c₁ c₂ : Context} {h₁ h₂ : MergeHistory}
  {now now' : Timestamp} (ht : Twice σ₀ σ₁ σ₂ s a b c₁ c₂ h₁ h₂)
include ht

-- The evidence of the relationships which one of the merges turns into self-loops.
def lost (σ₀ σ₁ : Store) (s a b : EntityId) (e : RelationshipEvidence) : Bool :=
  ofSelfLoop σ₀ a s e || ofSelfLoop σ₁ b s e

theorem get_b₁ : σ₁.entities.get? b.id = some b := by
  simp [ht.first.entities, ht.ne_ab, ht.get_b]

section Lifo

variable (hu₂ : Undone σ₂ σ₃ h₂ now) (hu₁ : Undone σ₃ σ₄ h₁ now')
include hu₂ hu₁

theorem lifo_evidence : σ₄.relationshipEvidence =
    σ₀.relationshipEvidence.filter (!lost σ₀ σ₁ s.id a.id b.id ·) := by
  have h₃ := ht.second.recovered_evidence hu₂ rfl
  ext1 i
  rw [hu₁.evidence, ht.first.reverted_evidence, revertedEvidence, h₃]
  simp only [Table.get?_filter, ht.first.evidence]
  cases he : σ₀.relationshipEvidence.get? i
  case none => simp
  case some e =>
    obtain ⟨r, hr⟩ : ∃ r, σ₀.relationships.get? e.relationshipId = some r :=
      Option.isSome_iff_exists.mp <| σ₀.evidence_relationship e (Table.get?_mem he) _ rfl
    have hl := ofSelfLoop_iff (m := a.id) (s := s.id) hr
    simp only [Option.bind_some, mergedEvidence, hr, Option.map_some]
    cases hf : fate σ₀.relationships a.id s.id r
    case absorbed j =>
      have hm := Table.get?_mem hr
      have hi : e.relationshipId = r.id := (Table.get?_key hr).symm
      -- The undo has found the evidence which it moves back.
      have hs := hu₁.moved _ (ht.first.entries _ |>.mpr <| .inr ⟨r, hm, j, hf, rfl⟩) rfl i <|
        ht.first.mem_movedEvidenceIds hm hf |>.mpr ⟨e, he, hi⟩
      have hn : ofSelfLoop σ₁ b.id s.id e = false := by
        have hg : σ₀.relationships.get? r.id = some r := Table.mem_iff_get?.mp hm
        simp [ofSelfLoop, hi, ht.first.relationships, hg, mergedRelationship, hf]
      rw [h₃, Table.get?_filter, ht.first.evidence, he] at hs
      simp only [Option.bind_some, mergedEvidence, hr, Option.map_some, hf] at hs
      simp_all [Option.filter, lost, moveTo]
      rw [← hi]
    all_goals simp_all [Option.filter, lost]

theorem lifo : Recovered (lost σ₀ σ₁ s.id a.id b.id) σ₀ σ₄ := by
  have h₃ := ht.second.recovered hu₂ ht.ne_bs ht.get_b₁ ht.b_unmerged
  exact {
    entities        := ht.first.recovered_entities hu₁ h₃.entities ht.get_a ht.a_unmerged
    aliases         := ht.first.recovered_aliases hu₁ h₃.aliases
    identifiers     := ht.first.recovered_identifiers hu₁ h₃.identifiers
    extractions     := ht.first.recovered_extractions hu₁ h₃.extractions
    relationships i := ht.first.recovered_relationships hu₁ ht.ne_as i (h₃.relationships i)
    evidence        := ht.lifo_evidence hu₂ hu₁ }

end Lifo

-- A merge of an entity with which `b` has no relationship leaves the relationships of `b` alone.

theorem not_touches (hn : ¬Adjacent σ₀ a.id b.id) {r : Relationship} (r₁ : Relationship)
    (hr : r ∈ σ₀.relationships)
    (hf : fate σ₀.relationships a.id s.id r ≠ .kept)
    (hm : mergedRelationship σ₀.relationships a.id s.id c₁.now r = some r₁) : ¬r₁.Touches b.id := by
  intro hb
  unfold mergedRelationship at hm
  cases hf' : fate σ₀.relationships a.id s.id r
  all_goals simp only [hf', reduceCtorEq, Option.some.injEq] at hm
  case kept => exact hf hf'
  case repointed =>
    subst hm
    have ⟨ha, _⟩ := fate_eq_repointed.mp hf'
    have ⟨hb, _⟩ := (repointedRow_touches hb).resolve_left ht.ne_bs
    exact hn ⟨r, hr, ha, hb⟩
  case absorbs x =>
    subst hm
    have ⟨_, hx, ha, _, hk⟩ := fate_eq_absorbs σ₀.relationship_natural |>.mp hf'
    exact hn ⟨x, hx, ha, touches_of_repointedKey hk hb ht.ne_bs⟩

theorem kept_of_touches (hn : ¬Adjacent σ₀ a.id b.id) {y : Relationship}
    (hy : y ∈ σ₀.relationships) (hb : y.Touches b.id) :
    fate σ₀.relationships a.id s.id y = .kept := by
  have ha : ¬y.Touches a.id := fun ha => hn ⟨y, hy, ha, hb⟩
  refine (fate_of_not_touches ha).resolve_right fun ⟨x, hf⟩ => ?_
  exact ht.not_touches hn (Tx.absorbedInto x y c₁.now) hy (by simp [hf])
    (by simp [mergedRelationship, hf]) hb

theorem mem_iff (hn : ¬Adjacent σ₀ a.id b.id) {y : Relationship} (hy : y.Touches b.id) :
    y ∈ σ₁.relationships ↔ y ∈ σ₀.relationships := by
  simp only [Table.mem_iff_get?, ht.first.relationships]
  constructor
  case mp =>
    intro hg
    have ⟨r, hr, hm⟩ := Option.bind_eq_some_iff.mp hg
    cases hf : fate σ₀.relationships a.id s.id r
    case kept =>
      simp only [mergedRelationship, hf, Option.some.injEq] at hm
      exact hm ▸ hr
    all_goals exact absurd hy <| ht.not_touches hn _ (Table.get?_mem hr) (by simp [hf]) hm
  case mpr =>
    intro hg
    rw [hg]
    simp [mergedRelationship, ht.kept_of_touches hn (Table.get?_mem hg) hy]

-- A relationship which is an absorber in both merges.
theorem shared_iff (hn : ¬Adjacent σ₀ a.id b.id) {x y r : Relationship} :
    fate σ₁.relationships b.id s.id (Tx.absorbedInto x r c₁.now) = .absorbs y ↔
      fate σ₀.relationships b.id s.id r = .absorbs y := by
  rw [fate_eq_absorbs σ₁.relationship_natural, fate_eq_absorbs σ₀.relationship_natural]
  refine and_congr_right fun _ => ?_
  constructor
  · exact fun ⟨hm, ht', h⟩ => ⟨ht.mem_iff hn ht' |>.mp hm, ht', h⟩
  · exact fun ⟨hm, ht', h⟩ => ⟨ht.mem_iff hn ht' |>.mpr hm, ht', h⟩

theorem second_fate (hn : ¬Adjacent σ₀ a.id b.id) {r : Relationship} (r₁ : Relationship)
    (hr : r ∈ σ₀.relationships) (hf : fate σ₀.relationships a.id s.id r ≠ .kept)
    (hm : mergedRelationship σ₀.relationships a.id s.id c₁.now r = some r₁) :
    fate σ₁.relationships b.id s.id r₁ = .kept ∨
      ∃ y, fate σ₁.relationships b.id s.id r₁ = .absorbs y :=
  fate_of_not_touches <| ht.not_touches hn r₁ hr hf hm

end Twice

end Merge
