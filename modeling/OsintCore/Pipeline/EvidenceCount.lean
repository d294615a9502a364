import OsintCore.Extraction.Theorems.Counts
import OsintCore.Merge.Theorems.Dangling

open EntityWorker (Counted EvidenceCounted evidenceRows evidenceIds mem_evidenceIds evidenceRows_congr
  length_eq_evidenceRows nodup_evidenceIds length_evidenceIds)

namespace Merge

variable {σ σ' : Store} {survivor merged : Entity} {ctx : Context} {h : MergeHistory}
  {now : Timestamp}

section Evidence

variable {t : Table Relationship} {m s : EntityId} {r : Relationship} {x : RelationshipEvidence}

-- A relationship which outlives a merge keeps its evidence, and gets that of the one it absorbs.
theorem mergedEvidence_relationship (hu : t.Unique (some <| Relationship.naturalKey ·)) (hr : r ∈ t)
    (hl : fate t m s r ≠ .selfLoop) (ha : ∀ b, fate t m s r ≠ .absorbed b) :
    (∃ x', mergedEvidence t m s x = some x' ∧ x'.relationshipId = r.id) ↔
      x.relationshipId = r.id ∨ ∃ a ∈ t, a.id = x.relationshipId ∧ fate t m s a = .absorbed r := by
  have eq {a b : Relationship} (ha : a ∈ t) (hb : b ∈ t) (hi : a.id = b.id) : a = b :=
    Table.eq_of_key_eq ha hb hi
  unfold mergedEvidence
  cases hg : t.get? x.relationshipId
  case none =>
    simp only [Option.map_none, Option.some.injEq, exists_eq_left']
    refine (or_iff_left fun ⟨a, hm, hi, _⟩ => ?_).symm
    exact Table.get?_eq_none.mp hg a hm hi
  case some a =>
    have ⟨hm, (hi : a.id = x.relationshipId)⟩ := Table.get?_eq_some.mp hg
    -- `a` is the only relationship whose fate counts.
    have he : (∃ c ∈ t, c.id = x.relationshipId ∧ fate t m s c = .absorbed r) ↔
        fate t m s a = .absorbed r :=
      ⟨fun ⟨c, hc, hci, hf⟩ => eq hc hm (hci.trans hi.symm) ▸ hf, fun hf => ⟨a, hm, hi, hf⟩⟩
    rw [he]
    have hne (hf : fate t m s a ≠ fate t m s r) : x.relationshipId ≠ r.id :=
      fun h => hf <| congrArg _ <| eq hm hr <| hi.trans h
    cases hf : fate t m s a
    case selfLoop => simpa [hf] using hne <| hf ▸ hl.symm
    case absorbed b =>
      have ⟨_, _, hb, _⟩ := fate_eq_absorbed hu |>.mp hf
      have hbr : b.id = r.id ↔ b = r := ⟨eq hb hr, congrArg _⟩
      simpa [hf, hbr] using fun h => absurd h <| hne <| hf ▸ (ha b).symm
    all_goals simp [hf]

end Evidence

section Execute

-- The sum of the two counts is the number of the rows afterwards: the absorber's count has not stopped
-- at the limit, and there is no overflow.
def SumsCount (σ : Store) (m s : EntityId) : Prop :=
  ∀ a ∈ σ.relationships.rows, ∀ b ∈ σ.relationships.rows, a.Touches m → ¬BecomesLoop m s a →
    b.naturalKey = repointedKey m s a → evidenceRows σ a.id = 0 ∨
      b.evidenceCount.toInt = evidenceRows σ b.id ∧
        evidenceRows σ b.id + evidenceRows σ a.id < 2 ^ 31

instance {m s : EntityId} : Decidable (SumsCount σ m s) :=
  inferInstanceAs (Decidable (∀ a ∈ σ.relationships.rows, ∀ b ∈ σ.relationships.rows, _))

theorem Executed.mem_evidenceIds (he : Executed σ σ' survivor merged ctx h) {r : Relationship}
    (hr : r ∈ σ.relationships)
    (hl : fate σ.relationships merged.id survivor.id r ≠ .selfLoop)
    (ha : ∀ b, fate σ.relationships merged.id survivor.id r ≠ .absorbed b) {k : Uuid} :
    k ∈ evidenceIds σ' r.id ↔ k ∈ evidenceIds σ r.id ∨ ∃ a ∈ σ.relationships,
      fate σ.relationships merged.id survivor.id a = .absorbed r ∧ k ∈ evidenceIds σ a.id := by
  simp only [EntityWorker.mem_evidenceIds, he.evidence, Option.bind_eq_some_iff]
  have hx (x : RelationshipEvidence) := mergedEvidence_relationship (x := x) (m := merged.id)
    (s := survivor.id) σ.relationship_natural hr hl ha
  constructor
  · intro ⟨x', ⟨x, hg, hm⟩, hi⟩
    obtain hi | ⟨a, ham, hai, hf⟩ := hx x |>.mp ⟨x', hm, hi⟩
    · exact .inl ⟨x, hg, hi⟩
    · exact .inr ⟨a, ham, hf, x, hg, hai.symm⟩
  · rintro (⟨x, hg, hi⟩ | ⟨a, ham, hf, x, hg, hi⟩)
    · have ⟨x', hm, hi⟩ := hx x |>.mpr <| .inl hi
      exact ⟨x', ⟨x, hg, hm⟩, hi⟩
    · have ⟨x', hm, hi⟩ := hx x |>.mpr <| .inr ⟨a, ham, hi.symm, hf⟩
      exact ⟨x', ⟨x, hg, hm⟩, hi⟩

theorem Executed.evidenceRows_lt (he : Executed σ σ' survivor merged ctx h) {a b : Relationship}
    (ha : a ∈ σ.relationships) (hf : fate σ.relationships merged.id survivor.id a = .absorbed b) :
    evidenceRows σ a.id < 100 := by
  have := he.moved a ha b hf
  rw [show mergeRefCap = EntityWorker.evidenceCountLimit from rfl,
    EntityWorker.length_listRelationshipEvidence] at this
  simp only [EntityWorker.evidenceCountLimit] at this
  omega

theorem Executed.counted (he : Executed σ σ' survivor merged ctx h) (hne : merged.id ≠ survivor.id)
    (hc : EvidenceCounted σ) (hs : SumsCount σ merged.id survivor.id) : EvidenceCounted σ' := by
  intro r' hr'
  have hg := Table.mem_iff_get?.mp hr'
  rw [he.relationships] at hg
  have ⟨r, hgr, hg⟩ := Option.bind_eq_some_iff.mp hg
  have ⟨hr, (hi : r.id = r'.id)⟩ := Table.get?_eq_some.mp hgr
  have hk {a b : Relationship} (ha : a ∈ σ.relationships)
      (hf : fate σ.relationships merged.id survivor.id a = .absorbed b) :=
    fate_absorbs_of_absorbed σ.relationship_natural hne ha hf
  rw [← hi]
  unfold mergedRelationship at hg
  -- Nothing has been absorbed: the row has the same evidence and the same count.
  have same (hn : ∀ a, fate σ.relationships merged.id survivor.id r ≠ .absorbs a)
      (hl : fate σ.relationships merged.id survivor.id r ≠ .selfLoop)
      (ha : ∀ b, fate σ.relationships merged.id survivor.id r ≠ .absorbed b)
      (hcr : r'.evidenceCount = r.evidenceCount) :
      Counted (evidenceRows σ' r.id) r'.evidenceCount := by
    rw [hcr, evidenceRows_congr fun k => he.mem_evidenceIds hr hl ha |>.trans <| or_iff_left
      fun ⟨a, ham, hfa, _⟩ => hn a (hk ham hfa).right]
    exact hc r hr
  cases hf : fate σ.relationships merged.id survivor.id r
  all_goals simp only [hf, reduceCtorEq] at hg
  case kept => exact same (by simp [hf]) (by simp [hf]) (by simp [hf]) (by rw [← Option.some.inj hg])
  case repointed =>
    exact same (by simp [hf]) (by simp [hf]) (by simp [hf]) (by rw [← Option.some.inj hg]; rfl)
  case absorbs a =>
    have ⟨ha, hfa⟩ := fate_absorbed_of_absorbs σ.relationship_natural hne hr hf
    have ⟨hta, hla, _, hka⟩ := fate_eq_absorbed σ.relationship_natural |>.mp hfa
    have hrow : evidenceRows σ' r.id = evidenceRows σ r.id + evidenceRows σ a.id := by
      rw [length_eq_evidenceRows (l := evidenceIds σ r.id ++ evidenceIds σ a.id)]
      · simp [length_evidenceIds]
      · refine nodup_evidenceIds.append nodup_evidenceIds fun k hkr hka => ?_
        have ⟨x, hx, hxr⟩ := EntityWorker.mem_evidenceIds.mp hkr
        have ⟨y, hy, hya⟩ := EntityWorker.mem_evidenceIds.mp hka
        have hxy : x = y := Option.some.inj <| hx.symm.trans hy
        have : r = a := Table.eq_of_key_eq hr ha <| hxr.symm.trans <| hxy ▸ hya
        simp [this, hfa] at hf
      · intro k
        rw [he.mem_evidenceIds hr (by simp [hf]) (by simp [hf]), List.mem_append]
        refine or_congr_right ⟨fun ⟨a', ha', hfa', hk'⟩ => ?_, fun h => ⟨a, ha, hfa, h⟩⟩
        have := (hk ha' hfa').right
        rw [hf] at this
        cases this
        exact hk'
    have hcount : r'.evidenceCount = r.evidenceCount + a.evidenceCount := by
      rw [← Option.some.inj hg]; rfl
    have hca := (hc a ha).toInt (he.evidenceRows_lt ha hfa).le
    have hcr := hc r hr
    have hlt := he.evidenceRows_lt ha hfa
    obtain hz | ⟨hcr', hlt'⟩ := hs a ha r hr hta hla hka
    case inl =>
      have : a.evidenceCount = 0 := by
        apply Int32.toInt_inj.mp
        simp [hca, hz]
      simpa [hrow, hcount, hz, this] using hcr
    case inr =>
      refine .inl ?_
      rw [hcount, hrow, Int32.toInt_add, hcr', hca]
      push_cast
      exact Int.bmod_eq_of_le (by omega) (by omega)

end Execute

section Undo

variable {σ₀ σ₁ : Store}

-- Nothing has happened to the evidence which the merge has moved or deleted, nor to that of the
-- absorbers: an undo puts the counts back as they were.
def CountsUnchanged (σ : Store) (h : MergeHistory) : Prop :=
  ∀ mr ∈ h.mergedRelationships,
    (mr.absorberRelationshipId = none →
      Counted (evidenceRows σ mr.absorbedRelationshipId) mr.absorbedSnapshot.evidenceCount) ∧
    ∀ b ∈ mr.absorberRelationshipId, evidenceRows σ mr.absorbedRelationshipId = 0 ∧
      (∀ k ∈ mr.movedEvidenceIds, ∀ x ∈ σ.relationshipEvidence.get? k, x.relationshipId = b) ∧
      ∀ pre ∈ mr.absorberPreMerge,
        Counted ((evidenceIds σ b).filter (· ∉ mr.movedEvidenceIds)).length pre.evidenceCount

instance {h : MergeHistory} : Decidable (CountsUnchanged σ h) :=
  inferInstanceAs (Decidable (∀ mr ∈ h.mergedRelationships, _))

-- The merge has moved the evidence `k` from `a` to `b`.
def Moved (σ₀ : Store) (m s : EntityId) (k : RelationshipEvidenceId) (a b : Relationship) : Prop :=
  a ∈ σ₀.relationships ∧ fate σ₀.relationships m s a = .absorbed b ∧ k ∈ evidenceIds σ₀ a.id

theorem Moved.eq {m s : EntityId} {k : RelationshipEvidenceId} {a b a' b' : Relationship}
    (hm : Moved σ₀ m s k a b) (hm' : Moved σ₀ m s k a' b') : a = a' ∧ b = b' := by
  have ⟨ha, hf, hk⟩ := hm
  have ⟨ha', hf', hk'⟩ := hm'
  have ⟨x, hx, hi⟩ := EntityWorker.mem_evidenceIds.mp hk
  have ⟨y, hy, hi'⟩ := EntityWorker.mem_evidenceIds.mp hk'
  have hxy : x = y := Option.some.inj <| hx.symm.trans hy
  obtain rfl : a = a' := Table.eq_of_key_eq ha ha' <| hi.symm.trans <| hxy ▸ hi'
  exact ⟨rfl, by simpa using hf.symm.trans hf'⟩

theorem Undone.mem_evidenceIds_of_moved (he : Executed σ₀ σ₁ survivor merged ctx h)
    (hu : Undone σ σ' h now) {k i : Uuid} {a b : Relationship}
    (hm : Moved σ₀ merged.id survivor.id k a b) : k ∈ evidenceIds σ' i ↔ a.id = i := by
  have ⟨ha, hf, hk⟩ := hm
  have ⟨x₀, hx₀, hi₀⟩ := EntityWorker.mem_evidenceIds.mp hk
  have hs : (σ.relationshipEvidence.get? k).isSome := by
    refine hu.moved _ (he.entries _ |>.mpr <| .inr ⟨a, ha, b, hf, rfl⟩) rfl k ?_
    exact he.mem_movedEvidenceIds ha hf |>.mpr ⟨x₀, hx₀, hi₀⟩
  have ⟨x, hx⟩ := Option.isSome_iff_exists.mp hs
  have hga : σ₀.relationships.get? x₀.relationshipId = some a := Table.get?_eq_some.mpr ⟨ha, hi₀.symm⟩
  simp only [EntityWorker.mem_evidenceIds, hu.evidence, he.reverted_evidence, revertedEvidence, hx₀,
    hga, Option.map_some, hf, hx]
  simp [moveTo, hi₀]

theorem Undone.mem_evidenceIds_of_not_moved (he : Executed σ₀ σ₁ survivor merged ctx h)
    (hu : Undone σ σ' h now) {k i : Uuid} (hm : ∀ a b, ¬Moved σ₀ merged.id survivor.id k a b) :
    k ∈ evidenceIds σ' i ↔ k ∈ evidenceIds σ i := by
  simp only [EntityWorker.mem_evidenceIds, hu.evidence, he.reverted_evidence, revertedEvidence]
  cases hx₀ : σ₀.relationshipEvidence.get? k
  case none => rfl
  case some x₀ =>
    cases hga : σ₀.relationships.get? x₀.relationshipId
    case none => simp [hga]
    case some a =>
      have ⟨ha, hi⟩ := Table.get?_eq_some.mp hga
      cases hf : fate σ₀.relationships merged.id survivor.id a
      case absorbed b =>
        exact absurd ⟨ha, hf, EntityWorker.mem_evidenceIds.mpr ⟨x₀, hx₀, hi.symm⟩⟩ (hm a b)
      all_goals simp [hga, hf]

theorem Undone.counted (he : Executed σ₀ σ₁ survivor merged ctx h) (hne : merged.id ≠ survivor.id)
    (hc₀ : EvidenceCounted σ₀) (hu : Undone σ σ' h now) (hc : EvidenceCounted σ)
    (hk : CountsUnchanged σ h) : EvidenceCounted σ' := by
  have entry {a b : Relationship} (ha : a ∈ σ₀.relationships)
      (hf : fate σ₀.relationships merged.id survivor.id a = .absorbed b) :=
    (hk _ (he.entries _ |>.mpr <| .inr ⟨a, ha, b, hf, rfl⟩)).right b.id rfl
  -- The evidence which is going to be moved back is at the absorbers.
  have at_absorber {k i : Uuid} {a b : Relationship} (hm : Moved σ₀ merged.id survivor.id k a b)
      (hi : k ∈ evidenceIds σ i) : b.id = i := by
    have ⟨x, hx, hxi⟩ := EntityWorker.mem_evidenceIds.mp hi
    have hmk := he.mem_movedEvidenceIds hm.left hm.right.left |>.mpr <|
      EntityWorker.mem_evidenceIds.mp hm.right.right
    exact (entry hm.left hm.right.left).right.left k hmk x hx |>.symm.trans hxi
  -- A relationship which the merge has neither absorbed nor given evidence.
  have same {i : Uuid} (ha : ∀ a ∈ σ₀.relationships, ∀ b, a.id = i →
      fate σ₀.relationships merged.id survivor.id a ≠ .absorbed b)
      (hb : ∀ b ∈ σ₀.relationships, ∀ a, b.id = i →
      fate σ₀.relationships merged.id survivor.id b ≠ .absorbs a) :
      evidenceRows σ' i = evidenceRows σ i := by
    refine evidenceRows_congr fun k => ?_
    by_cases hm : ∃ a b, Moved σ₀ merged.id survivor.id k a b
    case pos =>
      have ⟨a, b, hm⟩ := hm
      rw [hu.mem_evidenceIds_of_moved he hm]
      refine iff_of_false (fun hi => ha a hm.left b hi hm.right.left) fun hi => ?_
      have ⟨hbm, hbf⟩ := fate_absorbs_of_absorbed σ₀.relationship_natural hne hm.left hm.right.left
      exact hb b hbm a (at_absorber hm hi) hbf
    case neg => exact hu.mem_evidenceIds_of_not_moved he fun a b hm' => hm ⟨a, b, hm'⟩
  have eq {a b : Relationship} (ha : a ∈ σ₀.relationships) (hb : b ∈ σ₀.relationships)
      (hi : a.id = b.id) : a = b := Table.eq_of_key_eq ha hb hi
  intro r' hr'
  have hg := Table.mem_iff_get?.mp hr'
  rw [hu.relationships, he.reverted_relationships hne] at hg
  have now {v : Relationship} (hv : σ.relationships.get? r'.id = some v)
      (hcr : r'.evidenceCount = v.evidenceCount)
      (hs : evidenceRows σ' r'.id = evidenceRows σ r'.id) :
      Counted (evidenceRows σ' r'.id) r'.evidenceCount := by
    have hvi : v.id = r'.id := Table.get?_key hv
    rw [hs, hcr, ← hvi]
    exact hc v (Table.get?_mem hv)
  unfold revertedRelationship at hg
  cases hr₀ : σ₀.relationships.get? r'.id
  case none =>
    simp only [Relationship.key_eq, hr₀] at hg
    have hn {a : Relationship} (ha : a ∈ σ₀.relationships) : a.id ≠ r'.id :=
      Table.get?_eq_none.mp hr₀ a ha
    exact now hg rfl <| same (fun a ha _ hi => absurd hi (hn ha)) fun b hb _ hi => absurd hi (hn hb)
  case some r₀ =>
    have ⟨hm₀, (hi₀ : r₀.id = r'.id)⟩ := Table.get?_eq_some.mp hr₀
    have same' (ha : ∀ b, fate σ₀.relationships merged.id survivor.id r₀ ≠ .absorbed b)
        (hb : ∀ a, fate σ₀.relationships merged.id survivor.id r₀ ≠ .absorbs a) :
        evidenceRows σ' r'.id = evidenceRows σ r'.id :=
      same (fun a ham b hi => eq ham hm₀ (hi.trans hi₀.symm) ▸ ha b)
        fun b hbm a hi => eq hbm hm₀ (hi.trans hi₀.symm) ▸ hb a
    cases hf : fate σ₀.relationships merged.id survivor.id r₀
    all_goals simp only [Relationship.key_eq, hr₀, hf] at hg
    case kept => exact now hg rfl <| same' (by simp [hf]) (by simp [hf])
    case repointed =>
      have ⟨v, hv, hr⟩ := Option.map_eq_some_iff.mp hg
      refine now hv ?_ <| same' (by simp [hf]) (by simp [hf])
      rw [← hr]
      unfold restoreEnd
      split_ifs <;> rfl
    case selfLoop =>
      obtain rfl := Option.some.inj hg
      rw [same' (by simp [hf]) (by simp [hf])]
      exact (hk _ (he.entries _ |>.mpr <| .inl ⟨r₀, hm₀, hf, rfl⟩)).left rfl
    case absorbed b =>
      obtain rfl := Option.some.inj hg
      have hrow : evidenceRows σ' r₀.id = evidenceRows σ₀ r₀.id := by
        refine evidenceRows_congr fun k => ?_
        by_cases hm : ∃ a b, Moved σ₀ merged.id survivor.id k a b
        case pos =>
          have ⟨a, b', hm⟩ := hm
          rw [hu.mem_evidenceIds_of_moved he hm]
          constructor
          · exact fun hi => hi ▸ hm.right.right
          · exact fun hi => congrArg _ <| hm.eq ⟨hm₀, hf, hi⟩ |>.left
        case neg =>
          rw [hu.mem_evidenceIds_of_not_moved he fun a b hm' => hm ⟨a, b, hm'⟩]
          refine iff_of_false (fun hi => ?_) fun hi => hm ⟨r₀, b, hm₀, hf, hi⟩
          have := (entry hm₀ hf).left
          rw [← length_evidenceIds, List.length_eq_zero_iff] at this
          exact List.not_mem_nil <| this ▸ hi
      rw [hrow]
      exact hc₀ r₀ hm₀
    case absorbs a =>
      have ⟨v, hv, hr⟩ := Option.map_eq_some_iff.mp hg
      have ⟨ha, hfa⟩ := fate_absorbed_of_absorbs σ₀.relationship_natural hne hm₀ hf
      have hcr : r'.evidenceCount = r₀.evidenceCount := by rw [← hr]; rfl
      have hrow : evidenceRows σ' r₀.id = ((evidenceIds σ r₀.id).filter
          (· ∉ (collisionEntry σ₀ ⟨a, r₀⟩).movedEvidenceIds)).length := by
        refine length_eq_evidenceRows (nodup_evidenceIds.filter _) fun k => ?_
        rw [List.mem_filter, decide_eq_true_eq, he.mem_movedEvidenceIds ha hfa,
          ← EntityWorker.mem_evidenceIds]
        by_cases hm : ∃ a b, Moved σ₀ merged.id survivor.id k a b
        case pos =>
          have ⟨a', b', hm⟩ := hm
          rw [hu.mem_evidenceIds_of_moved he hm]
          constructor
          · intro hi
            exact absurd (eq hm.left hm₀ hi ▸ hm.right.left) (by simp [hf])
          · intro ⟨hi, hn⟩
            have ⟨hbm, hbf⟩ :=
              fate_absorbs_of_absorbed σ₀.relationship_natural hne hm.left hm.right.left
            have := eq hbm hm₀ (at_absorber hm hi)
            rw [this, hf] at hbf
            cases hbf
            exact absurd hm.right.right hn
        case neg =>
          rw [hu.mem_evidenceIds_of_not_moved he fun a b hm' => hm ⟨a, b, hm'⟩]
          exact (and_iff_left fun hi => hm ⟨a, r₀, ha, hfa, hi⟩).symm
      rw [← hi₀, hrow, hcr]
      exact (entry ha hfa).right.right _ rfl

end Undo

end Merge

-- Runs of the entity worker and the merge service on one store, in which the operations follow one
-- another.
namespace Pipeline

inductive Op
  | extractDocument (documentId : DocumentId) (now : Timestamp) (claimId : ProvenanceId)
  | merge (op : Merge.Op)

-- What an extraction has written before it fails is kept, a merge which fails is rolled back.
def Op.step (w : EntityWorker) (σ : Store) : Op → Store
  | .extractDocument documentId now claimId => (w.extractDocument documentId now claimId).exec σ
  | .merge op                               => op.step σ

def run (w : EntityWorker) (σ : Store) (ops : List Op) : Store :=
  ops.foldl (Op.step w) σ

open Merge (Pristine Executed SumsCount CountsUnchanged)

variable {w : EntityWorker} {σ : Store}

-- The operation leaves no relationship with a count which is not that of its evidence.
def Op.KeepsCounts (w : EntityWorker) (σ : Store) : Op → Prop
  | .extractDocument documentId now _ =>
    ¬EntityWorker.Skipped σ documentId → ∀ document, σ.getDocument documentId = some document →
      w.KeepsCounts σ (w.contextOf σ document now)
  | .merge (.executeMerge survivorId mergedId ctx) =>
    (Merge.executeMergeWithAudit σ survivorId mergedId ctx).isOk → SumsCount σ mergedId survivorId
  | .merge (.undoMerge id now) => ∀ h, σ.mergeHistory.get? id = some h →
    (Merge.undoMerge σ id now).isOk → CountsUnchanged σ h

-- The histories in force, each with the merge which wrote it, and which found all counts correct.
def RecordedCounts (σ : Store) : Prop :=
  ∀ h ∈ σ.mergeHistory, h.undoneAt = none → ∃ σ₀ σ₁ survivor merged ctx,
    merged.id ≠ survivor.id ∧ Executed σ₀ σ₁ survivor merged ctx h ∧ EvidenceCounted σ₀

theorem Op.step_counted (hw : Function.Injective w.newV5) {op : Op} (hc : EvidenceCounted σ)
    (hr : RecordedCounts σ) (hk : op.KeepsCounts w σ) :
    EvidenceCounted (op.step w σ) ∧ RecordedCounts (op.step w σ) := by
  cases op
  case extractDocument documentId now claimId =>
    refine ⟨EntityWorker.extractDocument_counted hw hc hk, ?_⟩
    simpa [RecordedCounts, Op.step, EntityWorker.extractDocument_mergeHistory] using hr
  case merge op =>
    cases op
    case executeMerge survivorId mergedId ctx =>
      simp only [Op.step, Merge.Op.step]
      split
      case h_2 => exact ⟨hc, hr⟩
      case h_1 h =>
        obtain ⟨survivor, merged, hch, hx⟩ := Merge.executeMergeWithAudit_eq_ok.mp h
        have he := Merge.executeInTx_executed hch.ids_ne hx
        have hk := hk <| by simp [h, Except.isOk, Except.toBool]
        rw [← hch.survivor_id, ← hch.merged_id] at hk
        refine ⟨he.counted hch.ids_ne hc hk, fun h' hm hi => ?_⟩
        rw [he.mergeHistory] at hm
        obtain rfl | ⟨hm, _⟩ := Table.mem_put.mp hm
        · exact ⟨_, _, _, _, _, hch.ids_ne, he, hc⟩
        · exact hr h' hm hi
    case undoMerge id now =>
      simp only [Op.step, Merge.Op.step]
      split
      case h_2 => exact ⟨hc, hr⟩
      case h_1 hu =>
        obtain ⟨h, _, _, hg, hi, _, _, _, hx⟩ := Merge.undoMerge_eq_ok.mp hu
        have hud := Merge.undoInTx_undone hx
        obtain ⟨_, _, _, _, _, hne, he, hc₀⟩ := hr h (Table.get?_mem hg) hi
        have hk := hk h hg <| by simp [hu, Except.isOk, Except.toBool]
        refine ⟨hud.counted he hne hc₀ hc hk, fun h' hm hi' => ?_⟩
        rw [hud.mergeHistory] at hm
        obtain rfl | ⟨hm, _⟩ := Table.mem_put.mp hm
        · simp at hi'
        · exact hr h' hm hi'

theorem run_append_singleton {l : List Op} {op : Op} : run w σ (l ++ [op]) = op.step w (run w σ l) := by
  simp [run]

-- The counts stay correct for as long as each operation finds the evidence as it expects it.
theorem run_evidenceCounted (hw : Function.Injective w.newV5) (hp : Pristine σ)
    (hc : EvidenceCounted σ) (ops : List Op)
    (hk : ∀ l op, l ++ [op] <+: ops → op.KeepsCounts w (run w σ l)) :
    ∀ l, l <+: ops → EvidenceCounted (run w σ l) := by
  have hr : ∀ l, l <+: ops → EvidenceCounted (run w σ l) ∧ RecordedCounts (run w σ l) := by
    intro l hl
    induction l using List.reverseRecOn
    case nil => exact ⟨hc, fun h hm hi => absurd hi (hp.history h hm)⟩
    case append_singleton l op hi =>
      have ⟨hc, hr⟩ := hi <| (List.prefix_append l [op]).trans hl
      rw [run_append_singleton]
      exact op.step_counted hw hc hr <| hk l op hl
  exact fun l hl => hr l hl |>.left

def authored (author : EntityId) : Relationship :=
  { Sample.owns (Sample.newV5 (.relationship 5 .authoredBy author)) 5 author 1 with
    relationshipType := .authoredBy }

-- The document `5` has two authors, which are going to be merged, and still has to be extracted.
def absorbingSample : Store := .mk
  { entities      := ⟨[Sample.person 1 "ann", Sample.person 2 "bob"], by decide⟩
    documents     := ⟨[EntityWorker.authoredDocument 5 "ann"], by decide⟩
    relationships := ⟨[authored 1, authored 2], by decide⟩
    relationshipEvidence :=
      ⟨[Sample.evidenceOf (authored 1).id 21, Sample.evidenceOf (authored 2).id 22],
        by decide⟩ }

def absorbingOps : List Op :=
  [.merge (.executeMerge 1 2 { reason := "", operator := "", audit := none, id := 31, now := 7 }),
   .merge (.undoMerge 31 9)]

-- The same with evidence for the absorber in between.
def absorbingOps' : List Op :=
  [.merge (.executeMerge 1 2 { reason := "", operator := "", audit := none, id := 31, now := 7 }),
   .extractDocument 5 8 41,
   .merge (.undoMerge 31 9)]

theorem absorbingSample_pristine : Pristine absorbingSample :=
  ⟨by decide, by decide⟩

theorem absorbingOps_keepsCounts (l : List Op) (op : Op) (h : l ++ [op] <+: absorbingOps) :
    op.KeepsCounts EntityWorker.authorWorker (run EntityWorker.authorWorker absorbingSample l) := by
  cases l
  case nil =>
    obtain rfl := (List.cons_prefix_cons.mp h).left
    exact fun _ => by decide
  case cons op₁ l =>
    obtain ⟨rfl, h'⟩ := List.cons_prefix_cons.mp h
    cases l
    case nil =>
      obtain rfl := (List.cons_prefix_cons.mp h').left
      intro h hg _
      have hu : ∀ h ∈ (run EntityWorker.authorWorker absorbingSample
          (absorbingOps.take 1)).mergeHistory.rows, CountsUnchanged (run EntityWorker.authorWorker
          absorbingSample (absorbingOps.take 1)) h := by decide
      exact hu h <| Table.get?_mem hg
    case cons => simpa using h'.length_le

theorem run_evidenceCounted_absorbingOps :
    EvidenceCounted (run EntityWorker.authorWorker absorbingSample absorbingOps) :=
  run_evidenceCounted Sample.newV5_injective absorbingSample_pristine (by decide) absorbingOps
    absorbingOps_keepsCounts absorbingOps (List.prefix_refl _)

theorem not_run_evidenceCounted : ¬∀ (w : EntityWorker) (σ : Store) (ops : List Op),
    Function.Injective w.newV5 → Pristine σ → EvidenceCounted σ → EvidenceCounted (run w σ ops) := by
  intro h
  have hc := h EntityWorker.authorWorker absorbingSample absorbingOps' Sample.newV5_injective
    absorbingSample_pristine (by decide)
  exact absurd hc (by decide)

end Pipeline
