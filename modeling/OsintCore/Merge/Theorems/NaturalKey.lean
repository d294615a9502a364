import OsintCore.Merge.Theorems.Execute

def MergeError.IsStorage (e : MergeError) : Prop :=
  ∃ e', e = .storage e'

open MergeError (IsStorage)

namespace Merge

variable {σ : Store} {m s : EntityId} {now : Timestamp}

-- The three groups into which a merge divides the relationships of the merged entity.
structure SafePartition (σ : Store) (m s : EntityId) : Prop where
  partition : (σ.relationships.rows.filter (·.Touches m)).Perm <|
    (classified σ m s).selfLoops ++ (classified σ m s).collisions.map (·.absorbed) ++
      (classified σ m s).safeRepoints
  selfLoop  : ∀ r ∈ (classified σ m s).selfLoops, BecomesLoop m s r
  collision : ∀ c ∈ (classified σ m s).collisions, ¬BecomesLoop m s c.absorbed ∧
    c.absorber ∈ σ.relationships ∧ c.absorber.naturalKey = repointedKey m s c.absorbed
  safe      : ∀ r ∈ (classified σ m s).safeRepoints, ¬BecomesLoop m s r ∧
    ∀ b ∈ σ.relationships, b.naturalKey ≠ repointedKey m s r
  distinct  : ∀ c₁ ∈ (classified σ m s).collisions, ∀ c₂ ∈ (classified σ m s).collisions,
    repointedKey m s c₁.absorbed = repointedKey m s c₂.absorbed → c₁ = c₂
  -- Only relationships of the merged entity are deleted or repointed.
  untouched : ∀ c ∈ (classified σ m s).collisions, ¬c.absorber.Touches m

-- The writes of relationships which a merge makes: the store before the write, and the row.
inductive RelationshipPut (σ : Store) (m s : EntityId) (now : Timestamp) :
    Store → Relationship → Prop
  | absorb {l₁ l₂ : List Collision} {c : Collision} {tx : Tx} {db : Store}
    (split : (classified σ m s).collisions = l₁ ++ c :: l₂)
    (before : l₁.foldlM (Tx.absorbCollision now)
      ((classified σ m s).selfLoops.foldl Tx.deleteSelfLoop { db := σ }) = .ok tx)
    (evidence : (tx.db.listRelationshipEvidence c.absorbed.id mergeRefCap).foldlM
      (Tx.moveEvidence c.absorber.id) tx.db = .ok db) :
    RelationshipPut σ m s now db (Tx.absorbedInto c.absorbed c.absorber now)
  | repoint {l₁ l₂ : List Relationship} {r : Relationship} {tx₂ tx : Tx}
    (absorbed : (classified σ m s).collisions.foldlM (Tx.absorbCollision now)
      ((classified σ m s).selfLoops.foldl Tx.deleteSelfLoop { db := σ }) = .ok tx₂)
    (split : (classified σ m s).safeRepoints = l₁ ++ r :: l₂)
    (before : l₁.foldlM (Tx.repointRelationship m s now) tx₂ = .ok tx) :
    RelationshipPut σ m s now tx.db (repointedRow m s now r)

-- The natural keys of the relationships while the merge is under way: the one which the relationship
-- had before, or the one it is repointed to.
def KeyOrigin (σ : Store) (m s : EntityId) (t : Table Relationship) : Prop :=
  ∀ b ∈ t, ∃ b₀ ∈ σ.relationships, b₀.id = b.id ∧
    (b.naturalKey = b₀.naturalKey ∨
      fate σ.relationships m s b₀ = .repointed ∧ b.naturalKey = repointedKey m s b₀)

theorem Complete.safePartition (hc : Complete σ m s) (hne : m ≠ s) : SafePartition σ m s where
  partition := by
    have hl : σ.listRelationshipsByObject m mergeRefCap =
        (σ.relationships.rows.filter (·.Touches m)).reverse :=
      List.take_of_length_take_lt hc.left
    exact (List.reverse_perm _).symm.trans <| hl ▸ classifyRelationships_perm
  selfLoop r hr := (fate_eq_selfLoop.mp (hc.mem_selfLoops.mp hr).right).right
  collision c h := by
    have ⟨_, hl, hb, hk⟩ := fate_eq_absorbed σ.relationship_natural |>.mp (hc.mem_collisions.mp h).right
    exact ⟨hl, hb, hk⟩
  safe r hr := (fate_eq_repointed.mp (hc.mem_safeRepoints.mp hr).right).right
  distinct c₁ h₁ c₂ h₂ hk := by
    have ⟨hm₁, hf₁⟩ := hc.mem_collisions.mp h₁
    have ⟨hm₂, hf₂⟩ := hc.mem_collisions.mp h₂
    have ⟨ht₁, hl₁, hb₁, hk₁⟩ := fate_eq_absorbed σ.relationship_natural |>.mp hf₁
    have ⟨ht₂, _, hb₂, hk₂⟩ := fate_eq_absorbed σ.relationship_natural |>.mp hf₂
    have ha := σ.relationship_natural.eq hm₁ hm₂
      (congrArg some <| repointedKey_injective ht₁ ht₂ hl₁ hk) rfl
    have hb := σ.relationship_natural.eq hb₁ hb₂ (congrArg some <| hk₁.trans <| hk.trans hk₂.symm) rfl
    cases c₁; cases c₂; simp_all
  untouched c h := by
    have ⟨_, _, _, hk⟩ := fate_eq_absorbed σ.relationship_natural |>.mp (hc.mem_collisions.mp h).right
    exact repointedKey_not_touches hne hk

-- A key which no relationship has, or only the one which is written, may be written.
theorem KeyOrigin.admits {t : Table Relationship} (ho : KeyOrigin σ m s t) {x : Relationship}
    (h₁ : ∀ b ∈ σ.relationships, b.naturalKey = x.naturalKey → b.id = x.id)
    (h₂ : ∀ b ∈ σ.relationships, fate σ.relationships m s b = .repointed →
      repointedKey m s b = x.naturalKey → b.id = x.id) :
    t.Admits (some <| Relationship.naturalKey ·) x := by
  intro b hb hne _ h
  have ⟨b₀, hm, hi, hk⟩ := ho b hb
  have hx : b.naturalKey = x.naturalKey := Option.some.inj h
  obtain hk | ⟨hf, hk⟩ := hk
  case inl => exact hne <| hi.symm.trans <| h₁ b₀ hm <| hk.symm.trans hx
  case inr => exact hne <| hi.symm.trans <| h₂ b₀ hm hf <| hk.symm.trans hx

section Writes

variable (hc : Complete σ m s) (hne : m ≠ s)
include hc hne

-- While collisions are absorbed, all keys are as before, and every absorber is there.
def Absorbing (σ : Store) (m s : EntityId) (t : Table Relationship) : Prop :=
  (∀ b ∈ t, ∃ b₀ ∈ σ.relationships, b₀.id = b.id ∧ b.naturalKey = b₀.naturalKey) ∧
  ∀ c ∈ (classified σ m s).collisions, (t.get? c.absorber.id).isSome

omit hc hne in
theorem Absorbing.keyOrigin {t : Table Relationship} (ha : Absorbing σ m s t) : KeyOrigin σ m s t :=
  fun b hb =>
    have ⟨b₀, hm, hi, hk⟩ := ha.left b hb
    ⟨b₀, hm, hi, .inl hk⟩

theorem Complete.absorbing_selfLoops :
    Absorbing σ m s ((classified σ m s).selfLoops.foldl Tx.deleteSelfLoop { db := σ }).db.relationships := by
  refine List.foldl_invariant (P := fun tx : Tx => Absorbing σ m s tx.db.relationships)
    ⟨fun b hb => ⟨b, hb, rfl, rfl⟩, fun c h => ?_⟩ fun tx r hr ⟨ho, ha⟩ => ⟨fun b hb => ?_, fun c h => ?_⟩
  · simp [(hc.absorber_get? hne h rfl).left]
  · exact ho b (Table.mem_erase.mp hb).left
  · have hi : r.id ≠ c.absorber.id := fun hi => by
      have ⟨hg, hf⟩ := hc.selfLoops_get? hr hi
      have ⟨hg', hf'⟩ := hc.absorber_get? hne h rfl
      obtain rfl : r = c.absorber := Option.some.inj <| hg.symm.trans hg'
      simp [hf] at hf'
    rw [Tx.deleteSelfLoop_relationships, if_neg hi]
    exact ha c h

theorem Absorbing.step {tx tx' : Tx} {c : Collision} (ha : Absorbing σ m s tx.db.relationships)
    (hm : c ∈ (classified σ m s).collisions) (h : tx.absorbCollision now c = .ok tx') :
    Absorbing σ m s tx'.db.relationships := by
  refine ⟨fun b hb => ?_, fun c' hm' => ?_⟩
  · have hg := Table.mem_iff_get?.mp hb
    rw [Tx.absorbCollision_relationships h] at hg
    split_ifs at hg with _ hi
    · have ⟨hb, _⟩ := hc.absorber_get? hne hm rfl
      exact ⟨c.absorber, Table.get?_mem hb, hi, Option.some.inj hg ▸ rfl⟩
    · exact ha.left b (Table.get?_mem hg)
  · rw [Tx.absorbCollision_relationships h,
      if_neg fun hi => (hc.independent hne).absorber c' hm' c hm hi.symm]
    split_ifs
    · rfl
    · exact ha.right c' hm'

theorem Complete.absorbing {l : List Collision} (hl : l ⊆ (classified σ m s).collisions) {tx : Tx}
    (h : l.foldlM (Tx.absorbCollision now)
      ((classified σ m s).selfLoops.foldl Tx.deleteSelfLoop { db := σ }) = .ok tx) :
    Absorbing σ m s tx.db.relationships :=
  List.foldlM_invariant (P := fun tx : Tx => Absorbing σ m s tx.db.relationships) h
    (hc.absorbing_selfLoops hne) fun _ _ _ hm ha ht => ha.step hc hne (hl hm) ht

-- The absorber may be written: it keeps its key.
theorem Absorbing.admits {t : Table Relationship} (ha : Absorbing σ m s t) {c : Collision}
    (h : c ∈ (classified σ m s).collisions) :
    t.Admits (some <| Relationship.naturalKey ·) (Tx.absorbedInto c.absorbed c.absorber now) := by
  have ⟨hb, _⟩ := hc.absorber_get? hne h rfl
  refine ha.keyOrigin.admits (fun b hm hk => ?_) (fun b _ hf hk => ?_)
  · have hi : b.id = c.absorber.id :=
      σ.relationship_natural.key_eq hm (Table.get?_mem hb) (congrArg some hk) rfl
    exact hi
  · exact absurd hk.symm <| (fate_eq_repointed.mp hf).right.right c.absorber (Table.get?_mem hb)

omit hne in
theorem KeyOrigin.step {tx tx' : Tx} {r : Relationship} (ho : KeyOrigin σ m s tx.db.relationships)
    (hr : r ∈ (classified σ m s).safeRepoints)
    (h : tx.repointRelationship m s now r = .ok tx') : KeyOrigin σ m s tx'.db.relationships := by
  intro b hb
  have ⟨_, _, ht⟩ := Tx.repointRelationship_repoints.step h
  rw [ht] at hb
  obtain rfl | ⟨hb, _⟩ := Table.mem_put.mp hb
  case inl =>
    have ⟨hm, hf⟩ := hc.mem_safeRepoints.mp hr
    exact ⟨r, hm, rfl, .inr ⟨hf, rfl⟩⟩
  case inr => exact ho b hb

theorem Complete.repointing {l : List Relationship} (hl : l ⊆ (classified σ m s).safeRepoints)
    {tx₂ tx : Tx} (h₂ : (classified σ m s).collisions.foldlM (Tx.absorbCollision now)
      ((classified σ m s).selfLoops.foldl Tx.deleteSelfLoop { db := σ }) = .ok tx₂)
    (h : l.foldlM (Tx.repointRelationship m s now) tx₂ = .ok tx) :
    KeyOrigin σ m s tx.db.relationships :=
  List.foldlM_invariant (P := fun tx : Tx => KeyOrigin σ m s tx.db.relationships) h
    (hc.absorbing hne (List.Subset.refl _) h₂).keyOrigin fun _ _ _ hr ho ht => ho.step hc (hl hr) ht

omit hne in
theorem KeyOrigin.admits_repointed {t : Table Relationship} (ho : KeyOrigin σ m s t)
    {r : Relationship} (h : r ∈ (classified σ m s).safeRepoints) :
    t.Admits (some <| Relationship.naturalKey ·) (repointedRow m s now r) := by
  have ⟨hm, hf⟩ := hc.mem_safeRepoints.mp h
  have ⟨ht, hl, hn⟩ := fate_eq_repointed.mp hf
  refine ho.admits (fun b hb hk => absurd hk <| hn b hb) fun b hb hf' hk => ?_
  have ⟨ht', hl', _⟩ := fate_eq_repointed.mp hf'
  have hi : b.id = r.id :=
    σ.relationship_natural.key_eq hb hm (congrArg some <| repointedKey_injective ht' ht hl' hk) rfl
  exact hi

theorem RelationshipPut.unique {db : Store} {row : Relationship}
    (h : RelationshipPut σ m s now db row) :
    (db.relationships.put row).Unique (some <| Relationship.naturalKey ·) := by
  refine db.relationship_natural.put ?_
  cases h
  case absorb split before evidence =>
    have ha := hc.absorbing hne (by simp [split]) before
    rw [Tx.moveEvidence_foldlM evidence]
    exact ha.admits hc hne (by simp [split])
  case repoint absorbed split before =>
    exact hc.repointing hne (by simp [split]) absorbed before |>.admits_repointed hc (by simp [split])

end Writes

theorem storage_never {α : Type} {x : Except StorageError α} (h : ∃ a, x = .ok a) :
    (storage x).Never IsStorage := by
  have ⟨_, h⟩ := h
  exact h ▸ .ok

theorem rejectTruncated_never {α : Type} {c : String} {id : Uuid} {rows : List α} :
    (rejectTruncated c id rows).Never IsStorage := by
  unfold rejectTruncated
  split_ifs
  · exact .error nofun
  · exact .ok

theorem orThrow_never {α : Type} {x : Option α} {e : MergeError} (h : ¬e.IsStorage) :
    (orThrow x e).Never IsStorage := by
  cases x
  · exact .error h
  · exact .ok

namespace Tx

theorem moveEvidence_never {b : RelationshipId} {l : List RelationshipEvidence} {db : Store}
    (hb : (db.relationships.get? b).isSome)
    (hl : ∀ e ∈ l, ∀ i ∈ e.rawEvidenceId, (db.rawEvidence.get? i).isSome) :
    (l.foldlM (moveEvidence b) db).Never IsStorage := by
  refine List.foldlM_never (I := fun l db => (db.relationships.get? b).isSome ∧
    ∀ e ∈ l, ∀ i ∈ e.rawEvidenceId, (db.rawEvidence.get? i).isSome) ⟨hb, hl⟩ ?_ ?_
  · intro e l db ⟨hb, hl⟩
    exact storage_never <| Store.exists_putRelationshipEvidence hb (hl e List.mem_cons_self)
  · intro e l db db' ⟨hb, hl⟩ h
    have ⟨_, _, ht⟩ := Store.putRelationshipEvidence_eq_ok.mp <| storage_eq_ok.mp h
    exact ⟨by simpa [ht] using hb, fun e he => by simpa [ht] using hl e (List.mem_cons_of_mem _ he)⟩

end Tx

section Writes

variable (hc : Complete σ m s) (hne : m ≠ s)
include hc

include hne in
theorem Absorbing.absorbCollision_never {tx : Tx} {c : Collision}
    (ha : Absorbing σ m s tx.db.relationships) (hm : c ∈ (classified σ m s).collisions)
    (now : Timestamp) : (tx.absorbCollision now c).Never IsStorage := by
  refine .bind rejectTruncated_never fun evidence he => .bind ?_ fun db h => .bind ?_ fun _ _ => .ok
  · have ⟨_, he⟩ := rejectTruncated_eq_ok.mp he
    subst he
    refine Tx.moveEvidence_never (ha.right c hm) fun e he => ?_
    have he : e ∈ tx.db.relationshipEvidence := by
      simp only [Store.listRelationshipEvidence] at he
      have := List.mem_of_mem_take he
      simp at this
      exact this.left
    exact tx.db.evidence_raw e he
  · have ht := Tx.moveEvidence_foldlM h
    refine storage_never <| Store.exists_putRelationship ?_
    rw [ht]
    exact ha.admits hc hne hm

theorem KeyOrigin.repointRelationship_never {tx : Tx} {r : Relationship}
    (ho : KeyOrigin σ m s tx.db.relationships) (hr : r ∈ (classified σ m s).safeRepoints)
    (now : Timestamp) : (tx.repointRelationship m s now r).Never IsStorage :=
  .bind (orThrow_never nofun) fun _ _ => .bind
    (storage_never <| Store.exists_putRelationship <| ho.admits_repointed hc hr) fun _ _ => .ok

end Writes

-- The loops which repoint the other rows need the survivor, and that an identifier keeps its key.

theorem repointAlias_never {tx : Tx} {l : List EntityAlias}
    (hs : (tx.db.entities.get? s).isSome) :
    (l.foldlM (Tx.repointAlias m s) tx).Never IsStorage := by
  refine List.foldlM_never (I := fun _ tx => (tx.db.entities.get? s).isSome) hs ?_ ?_
  · exact fun a l tx hs =>
      .bind (storage_never <| Store.exists_putEntityAlias hs) fun _ _ => .ok
  · intro a l tx tx' hs h
    have ⟨_, _, ht⟩ := Tx.repointAlias_repoints.step h
    rwa [ht]

theorem repointIdentifier_never {tx : Tx} {l : List EntityIdentifier}
    (hs : (tx.db.entities.get? s).isSome)
    (hl : ∀ i ∈ l, ∃ row ∈ tx.db.entityIdentifiers, row.id = i.id ∧ row.naturalKey = i.naturalKey) :
    (l.foldlM (Tx.repointIdentifier m s) tx).Never IsStorage := by
  refine List.foldlM_never (I := fun l tx => (tx.db.entities.get? s).isSome ∧ ∀ i ∈ l,
    ∃ row ∈ tx.db.entityIdentifiers, row.id = i.id ∧ row.naturalKey = i.naturalKey) ⟨hs, hl⟩ ?_ ?_
  · intro i l tx ⟨hs, hl⟩
    have ⟨row, hr, hi, hk⟩ := hl i List.mem_cons_self
    have ha := tx.db.identifier_natural.admits (a := { i with entityId := s }) hr hi
      (congrArg some hk)
    exact .bind (storage_never <| Store.exists_putEntityIdentifier ha hs) fun _ _ => .ok
  · intro i l tx tx' ⟨hs, hl⟩ h
    have ⟨_, _, ht⟩ := Tx.repointIdentifier_repoints.step h
    refine ⟨by rwa [ht], fun j hj => ?_⟩
    have ⟨row, hr, hi, hk⟩ := hl j (List.mem_cons_of_mem _ hj)
    have ⟨row₀, hr₀, hi₀, hk₀⟩ := hl i List.mem_cons_self
    rw [ht]
    by_cases h : row.id = i.id
    case pos =>
      have := Table.eq_of_key_eq hr hr₀ (h.trans hi₀.symm)
      exact ⟨_, Table.mem_put_self .., h.symm.trans hi, (this ▸ hk₀).symm.trans hk⟩
    case neg => exact ⟨row, Table.mem_put.mpr <| .inr ⟨hr, h⟩, hi, hk⟩

theorem repointExtraction_never {tx : Tx} {l : List EntityExtraction}
    (hs : (tx.db.entities.get? s).isSome) :
    (l.foldlM (Tx.repointExtraction m s) tx).Never IsStorage := by
  refine List.foldlM_never (I := fun _ tx => (tx.db.entities.get? s).isSome) hs ?_ ?_
  · exact fun a l tx hs =>
      .bind (storage_never <| Store.exists_putEntityExtraction hs) fun _ _ => .ok
  · intro a l tx tx' hs h
    have ⟨_, _, ht⟩ := Tx.repointExtraction_repoints.step h
    rwa [ht]

theorem executeInTx_never {survivor merged : Entity} {ctx : Context}
    (hne : merged.id ≠ survivor.id) (hs : σ.entities.get? survivor.id = some survivor)
    (hm : σ.entities.get? merged.id = some merged) :
    (executeInTx σ survivor merged ctx).Never IsStorage := by
  refine .bind rejectTruncated_never fun _ hm' => .bind rejectTruncated_never fun _ hs' =>
    .bind rejectTruncated_never fun aliases _ => .bind rejectTruncated_never fun identifiers hi' =>
    .bind rejectTruncated_never fun extractions _ => ?_
  obtain ⟨hlm, hem⟩ := rejectTruncated_eq_ok.mp hm'
  obtain ⟨hls, hes⟩ := rejectTruncated_eq_ok.mp hs'
  obtain ⟨hli, hei⟩ := rejectTruncated_eq_ok.mp hi'
  subst hem hes hei
  have hc : Complete σ merged.id survivor.id := ⟨hlm, hls⟩
  have absorb := List.foldlM_never
    (I := fun l tx => l ⊆ (classified σ merged.id survivor.id).collisions ∧
      Absorbing σ merged.id survivor.id tx.db.relationships)
    ⟨List.Subset.refl _, hc.absorbing_selfLoops hne⟩
    (fun c l tx hi => hi.right.absorbCollision_never hc hne (hi.left List.mem_cons_self) ctx.now)
    fun c l tx tx' hi h => ⟨fun _ hm => hi.left (List.mem_cons_of_mem _ hm),
      hi.right.step hc hne (hi.left List.mem_cons_self) h⟩
  refine .bind absorb fun tx₂ h₂ => ?_
  have repoint := List.foldlM_never
    (I := fun l tx => l ⊆ (classified σ merged.id survivor.id).safeRepoints ∧
      KeyOrigin σ merged.id survivor.id tx.db.relationships)
    ⟨List.Subset.refl _, hc.absorbing hne (List.Subset.refl _) h₂ |>.keyOrigin⟩
    (fun r l tx hi => hi.right.repointRelationship_never hc (hi.left List.mem_cons_self) ctx.now)
    fun r l tx tx' hi h => ⟨fun _ hm => hi.left (List.mem_cons_of_mem _ hm),
      hi.right.step hc (hi.left List.mem_cons_self) h⟩
  refine .bind repoint fun tx₃ h₃ => ?_
  -- The entities and the identifiers are as before.
  have hw := Tx.foldlM_absorbCollision_withoutRelationships h₂
  rw [Tx.foldl_deleteSelfLoop_withoutRelationships] at hw
  simp only [Tables.withoutRelationships, Tables.mk.injEq, true_and] at hw
  obtain ⟨hen, _, hid, _⟩ := hw
  obtain ⟨_, _, ht₃⟩ := Tx.repointRelationship_repoints.loop h₃
  have hs₃ : (tx₃.db.entities.get? survivor.id).isSome := by simp [ht₃, hen, hs]
  refine .bind (repointAlias_never hs₃) fun tx₄ h₄ => ?_
  obtain ⟨_, _, ht₄⟩ := Tx.repointAlias_repoints.loop h₄
  have hs₄ : (tx₄.db.entities.get? survivor.id).isSome := by rw [ht₄]; exact hs₃
  refine .bind (repointIdentifier_never hs₄ fun i hi => ⟨i, ?_, rfl, rfl⟩) fun tx₅ h₅ => ?_
  · obtain ⟨hi, _⟩ := Store.mem_listEntityIdentifiersByEntity hli |>.mp hi
    rw [ht₄, ht₃]
    exact hid ▸ hi
  obtain ⟨_, _, ht₅⟩ := Tx.repointIdentifier_repoints.loop h₅
  have hs₅ : (tx₅.db.entities.get? survivor.id).isSome := by rw [ht₅]; exact hs₄
  refine .bind (repointExtraction_never hs₅) fun tx₆ h₆ => ?_
  obtain ⟨_, _, ht₆⟩ := Tx.repointExtraction_repoints.loop h₆
  have hen₆ : tx₆.db.entities = σ.entities := by simp [ht₆, ht₅, ht₄, ht₃, hen]
  refine .bind (storage_never ?_) fun db h => .bind (storage_never ?_) fun _ _ => .ok
  · have hm : merged ∈ tx₆.db.entities := hen₆ ▸ Table.get?_mem hm
    refine Store.exists_putEntity (tx₆.db.entity_natural.admits hm rfl rfl) fun i hi => ?_
    cases hi
    exact Table.isSome_get?_put <| by simp [hen₆, hs]
  · obtain ⟨_, _, ht⟩ := Store.putEntity_eq_ok.mp <| storage_eq_ok.mp h
    refine Store.exists_putMergeHistory ?_
    rw [ht]
    exact Table.isSome_get?_put <| by simp [hen₆, hs]

theorem checkEntities_never {survivor merged : Entity} :
    (checkEntities survivor merged).Never IsStorage := by
  unfold checkEntities
  split_ifs
  · exact .error nofun
  · split
    · exact .error nofun
    · exact .error nofun
    · exact .ok

theorem executeMergeWithAudit_never {survivorId mergedId : EntityId} {ctx : Context} :
    (executeMergeWithAudit σ survivorId mergedId ctx).Never IsStorage := by
  unfold executeMergeWithAudit
  split_ifs with h
  case pos => exact .bind (.error nofun) fun _ => nofun
  case neg =>
    refine .bind (orThrow_never nofun) fun survivor hs => .bind (orThrow_never nofun) fun merged hm =>
      .bind checkEntities_never fun _ _ => ?_
    have hs := orThrow_eq_ok.mp hs
    have hm := orThrow_eq_ok.mp hm
    obtain rfl : survivor.id = survivorId := Table.get?_key hs
    obtain rfl : merged.id = mergedId := Table.get?_key hm
    exact executeInTx_never (Ne.symm h) hs hm

-- A merge never writes two relationships with the same natural key, so that no write of it violates
-- a constraint of the schema.
theorem executeMerge_natural_keys (σ : Store) (survivorId mergedId : EntityId)
    (reason operator : String) (id : MergeHistoryId) (now : Timestamp) :
    (∀ e, executeMerge σ survivorId mergedId reason operator id now ≠ .error (.storage e)) ∧
    (∀ x, executeMerge σ survivorId mergedId reason operator id now = .ok x →
      Complete σ mergedId survivorId) ∧
    (mergedId ≠ survivorId → Complete σ mergedId survivorId → SafePartition σ mergedId survivorId ∧
      ∀ db row, RelationshipPut σ mergedId survivorId now db row →
        (db.relationships.put row).Unique (some <| Relationship.naturalKey ·)) := by
  refine ⟨fun e => executeMergeWithAudit_never _ ⟨e, rfl⟩, fun ⟨σ', h, changes⟩ he => ?_,
    fun hne hc => ⟨hc.safePartition hne, fun _ _ => RelationshipPut.unique hc hne⟩⟩
  have ⟨survivor, merged, hc, hx⟩ := executeMergeWithAudit_eq_ok.mp he
  have hs := hc.survivor_id
  have hm := hc.merged_id
  subst hs hm
  exact executeInTx_executed hc.ids_ne hx |>.complete

-- The merged entity has relationships in both directions, one of which the survivor has, too.
def naturalKeySample : Store := .mk
  { entities      := Sample.threePeople
    relationships := ⟨[Sample.owns 11 1 3 1, Sample.owns 12 2 3 2, Sample.owns 13 3 2 1,
      Sample.owns 14 1 2 0], by decide⟩ }

theorem executeMerge_natural_keys_naturalKeySample :
    (∀ e, executeMerge naturalKeySample 1 2 "" "" 31 7 ≠ .error (.storage e)) ∧
    Complete naturalKeySample 2 1 ∧ SafePartition naturalKeySample 2 1 ∧
    ∀ db row, RelationshipPut naturalKeySample 2 1 7 db row →
      (db.relationships.put row).Unique (some <| Relationship.naturalKey ·) := by
  have ⟨x, hx⟩ := Except.exists_of_isOk <|
    show (executeMerge naturalKeySample 1 2 "" "" 31 7).isOk by decide
  have ⟨hn, hc, hk⟩ := executeMerge_natural_keys naturalKeySample 1 2 "" "" 31 7
  exact ⟨hn, hc x hx, hk (by decide) (hc x hx)⟩

end Merge
