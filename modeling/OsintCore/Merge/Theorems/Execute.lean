import OsintCore.Merge.Theorems.Steps

open Except (bind_eq_ok pure_eq_ok)

-- The tables which the deletion and the absorption of relationships leave as they are.
def Tables.withoutRelationships (t : Tables) : Tables :=
  { t with
    relationships        := ∅
    relationshipEvidence := ∅ }

namespace Merge

-- A collecting query of the merge is complete, or the merge fails.
def Complete (σ : Store) (m s : EntityId) : Prop :=
  (σ.listRelationshipsByObject m mergeRefCap).length < mergeRefCap ∧
  (σ.listRelationshipsByObject s mergeRefCap).length < mergeRefCap

theorem Complete.collected {σ : Store} {m s : EntityId} (h : Complete σ m s) :
    Collected σ.relationships (σ.listRelationshipsByObject m mergeRefCap)
      (σ.listRelationshipsByObject s mergeRefCap) m s where
  merged _   := Store.mem_listRelationshipsByObject h.left
  survivor _ := Store.mem_listRelationshipsByObject h.right
  nodup      := Store.nodup_listRelationshipsByObject
  natural    := σ.relationship_natural

-- The three groups of the relationships of `m`.
def classified (σ : Store) (m s : EntityId) : Classified :=
  classifyRelationships (σ.listRelationshipsByObject m mergeRefCap)
    (σ.listRelationshipsByObject s mergeRefCap) m s

section Classified

variable {σ : Store} {m s : EntityId} (hc : Complete σ m s)
include hc

theorem Complete.mem_selfLoops {r : Relationship} :
    r ∈ (classified σ m s).selfLoops ↔ r ∈ σ.relationships ∧ fate σ.relationships m s r = .selfLoop :=
  hc.collected.mem_selfLoops

theorem Complete.mem_collisions {c : Collision} :
    c ∈ (classified σ m s).collisions ↔ c.absorbed ∈ σ.relationships ∧
      fate σ.relationships m s c.absorbed = .absorbed c.absorber :=
  hc.collected.mem_collisions

theorem Complete.mem_safeRepoints {r : Relationship} :
    r ∈ (classified σ m s).safeRepoints ↔
      r ∈ σ.relationships ∧ fate σ.relationships m s r = .repointed :=
  hc.collected.mem_safeRepoints

end Classified

namespace Tx

section SelfLoops

variable {tx : Tx} {rels : List Relationship}

theorem foldl_deleteSelfLoop_mergedRelationships :
    (rels.foldl deleteSelfLoop tx).mergedRelationships =
      tx.mergedRelationships ++ rels.map selfLoopEntry := by
  induction rels generalizing tx
  case nil => simp
  case cons r rels hi => simp [hi, deleteSelfLoop_mergedRelationships]

theorem foldl_deleteSelfLoop_repointedReferences :
    (rels.foldl deleteSelfLoop tx).repointedReferences = tx.repointedReferences :=
  List.foldl_constant (v := repointedReferences) fun _ _ _ => rfl

theorem foldl_deleteSelfLoop_withoutRelationships :
    (rels.foldl deleteSelfLoop tx).db.withoutRelationships = tx.db.withoutRelationships :=
  List.foldl_constant (v := fun tx : Tx => tx.db.withoutRelationships) fun _ _ _ => rfl

theorem foldl_deleteSelfLoop_listEvidence {id : RelationshipId} (h : ∀ r ∈ rels, r.id ≠ id) :
    (rels.foldl deleteSelfLoop tx).db.listRelationshipEvidence id mergeRefCap =
      tx.db.listRelationshipEvidence id mergeRefCap := by
  apply List.foldl_constant (v := fun tx : Tx => tx.db.listRelationshipEvidence id mergeRefCap)
  intro tx r hr
  apply Store.listRelationshipEvidence_congr
  intro e he
  have hne : e.relationshipId ≠ r.id := he ▸ (h r hr).symm
  simp [deleteSelfLoop, hne]

end SelfLoops

section Collisions

variable {tx tx' : Tx} {cs : List Collision} {now : Timestamp}

theorem foldlM_absorbCollision_repointedReferences
    (h : cs.foldlM (absorbCollision now) tx = .ok tx') :
    tx'.repointedReferences = tx.repointedReferences :=
  List.foldlM_constant h fun _ _ _ _ hc => (absorbCollision_ok hc).right.left

theorem foldlM_absorbCollision_withoutRelationships
    (h : cs.foldlM (absorbCollision now) tx = .ok tx') :
    tx'.db.withoutRelationships = tx.db.withoutRelationships := by
  refine List.foldlM_constant (v := fun tx => tx.db.withoutRelationships) h ?_
  intro b b' c _ hc
  have ⟨_, _, _, ht⟩ := absorbCollision_ok hc
  simp [Tables.withoutRelationships, ht]

-- The absorption of one relationship does not touch the evidence of another one.
theorem absorbCollision_listEvidence {c : Collision} {id : RelationshipId}
    (h : absorbCollision now tx c = .ok tx') (hne : c.absorber.id ≠ c.absorbed.id)
    (h₁ : c.absorbed.id ≠ id) (h₂ : c.absorber.id ≠ id) :
    tx'.db.listRelationshipEvidence id mergeRefCap =
      tx.db.listRelationshipEvidence id mergeRefCap := by
  apply Store.listRelationshipEvidence_congr
  intro e he
  simp only [Table.mem_iff_get?, absorbCollision_evidence h hne, Option.map_eq_some_iff]
  constructor
  case mp =>
    intro ⟨e', hg, hm⟩
    split_ifs at hm
    · exact absurd (he ▸ hm ▸ rfl) h₂
    · exact hm ▸ hg
  case mpr => exact fun hg => ⟨e, hg, if_neg fun h => h₁ (h.symm.trans he)⟩

-- No collision of a merge interferes with another one.
structure Independent (cs : List Collision) : Prop where
  nodup    : (cs.map (·.absorbed.id)).Nodup
  absorber : ∀ c ∈ cs, ∀ c' ∈ cs, c.absorber.id ≠ c'.absorbed.id

theorem foldlM_absorbCollision_mergedRelationships {σ : Store} (hi : Independent cs)
    (h : cs.foldlM (absorbCollision now) tx = .ok tx')
    (he : ∀ c ∈ cs, tx.db.listRelationshipEvidence c.absorbed.id mergeRefCap =
      σ.listRelationshipEvidence c.absorbed.id mergeRefCap) :
    tx'.mergedRelationships = tx.mergedRelationships ++ cs.map (collisionEntry σ) ∧
    ∀ c ∈ cs, (σ.listRelationshipEvidence c.absorbed.id mergeRefCap).length < mergeRefCap := by
  induction cs generalizing tx
  case nil => simp_all
  case cons c cs ih =>
    simp only [List.foldlM_cons, bind_eq_ok] at h
    obtain ⟨tx₁, h₁, h⟩ := h
    obtain ⟨hl, _, hm, _⟩ := absorbCollision_ok h₁
    obtain ⟨hc, hn⟩ := List.nodup_cons.mp hi.nodup
    have hne : ∀ c' ∈ cs, c.absorbed.id ≠ c'.absorbed.id := fun c' hc' he =>
      hc <| List.mem_map.mpr ⟨c', hc', he.symm⟩
    have ha := hi.absorber c List.mem_cons_self
    have hi' : Independent cs :=
      ⟨hn, fun c hc c' hc' => hi.absorber c (.tail _ hc) c' (.tail _ hc')⟩
    have hd := he c List.mem_cons_self
    obtain ⟨hm', hl'⟩ := ih hi' h fun c' hc' => by
      rw [absorbCollision_listEvidence h₁ (ha c List.mem_cons_self) (hne c' hc') (ha c' (.tail _ hc')),
        he c' (.tail _ hc')]
    constructor
    · simp [hm', hm, collisionEntry, hd]
    · exact List.forall_mem_cons.mpr ⟨hd ▸ hl, hl'⟩

end Collisions

end Tx

-- The loops over relationships, as seen at the row with the id `i`.

def deleteAt (i : Uuid) (v : Option Relationship) (r : Relationship) : Option Relationship :=
  if r.id = i then none else v

def absorbAt (now : Timestamp) (i : Uuid) (v : Option Relationship) (c : Collision) :
    Option Relationship :=
  if c.absorbed.id = i then none
  else if c.absorber.id = i then some (Tx.absorbedInto c.absorbed c.absorber now)
  else v

def repointAt (m s : EntityId) (now : Timestamp) (i : Uuid) (v : Option Relationship)
    (r : Relationship) : Option Relationship :=
  if r.id = i then some (repointedRow m s now r) else v

-- The same as seen at a piece of evidence.

def deleteEvidenceAt (v : Option RelationshipEvidence) (r : Relationship) :
    Option RelationshipEvidence :=
  v.filter (·.relationshipId ≠ r.id)

def moveEvidenceAt (v : Option RelationshipEvidence) (c : Collision) :
    Option RelationshipEvidence :=
  v.map fun e => if e.relationshipId = c.absorbed.id then moveTo c.absorber.id e else e

section Pointwise

variable {σ : Store} {m s : EntityId} (hc : Complete σ m s) (hne : m ≠ s)
include hc

theorem Complete.selfLoops_get? {i : Uuid} {r : Relationship} (h : r ∈ (classified σ m s).selfLoops)
    (hi : r.id = i) : σ.relationships.get? i = some r ∧ fate σ.relationships m s r = .selfLoop := by
  have ⟨hm, hf⟩ := hc.mem_selfLoops.mp h
  exact ⟨Table.get?_eq_some.mpr ⟨hm, hi⟩, hf⟩

theorem Complete.absorbed_get? {i : Uuid} {c : Collision} (h : c ∈ (classified σ m s).collisions)
    (hi : c.absorbed.id = i) : σ.relationships.get? i = some c.absorbed ∧
      fate σ.relationships m s c.absorbed = .absorbed c.absorber := by
  have ⟨hm, hf⟩ := hc.mem_collisions.mp h
  exact ⟨Table.get?_eq_some.mpr ⟨hm, hi⟩, hf⟩

theorem Complete.safeRepoints_get? {i : Uuid} {r : Relationship}
    (h : r ∈ (classified σ m s).safeRepoints) (hi : r.id = i) :
    σ.relationships.get? i = some r ∧ fate σ.relationships m s r = .repointed := by
  have ⟨hm, hf⟩ := hc.mem_safeRepoints.mp h
  exact ⟨Table.get?_eq_some.mpr ⟨hm, hi⟩, hf⟩

include hne

theorem Complete.absorber_get? {i : Uuid} {c : Collision} (h : c ∈ (classified σ m s).collisions)
    (hi : c.absorber.id = i) : σ.relationships.get? i = some c.absorber ∧
      fate σ.relationships m s c.absorber = .absorbs c.absorbed := by
  have ⟨hm, hf⟩ := hc.mem_collisions.mp h
  have ⟨hb, ha⟩ := fate_absorbs_of_absorbed σ.relationship_natural hne hm hf
  exact ⟨Table.get?_eq_some.mpr ⟨hb, hi⟩, ha⟩

theorem Complete.independent : Tx.Independent (classified σ m s).collisions where
  nodup := hc.collected.collisions_nodup
  absorber c h c' h' hi := by
    have ⟨h₁, hf₁⟩ := hc.absorber_get? hne h hi
    have ⟨h₂, hf₂⟩ := hc.absorbed_get? h' rfl
    simp_all

theorem Complete.foldl_relationships {now : Timestamp} (i : Uuid) :
    (classified σ m s).safeRepoints.foldl (repointAt m s now i)
      ((classified σ m s).collisions.foldl (absorbAt now i)
        ((classified σ m s).selfLoops.foldl (deleteAt i) (σ.relationships.get? i))) =
    (σ.relationships.get? i).bind (mergedRelationship σ.relationships m s now) := by
  have hl := fun r h => hc.selfLoops_get? (i := i) (r := r) h
  have ha := fun c h => hc.absorbed_get? (i := i) (c := c) h
  have hb := fun c h => hc.absorber_get? hne (i := i) (c := c) h
  have hs := fun r h => hc.safeRepoints_get? (i := i) (r := r) h
  cases hr : σ.relationships.get? i
  case none =>
    rw [List.foldl_skip, List.foldl_skip, List.foldl_skip]
    all_goals grind [deleteAt, absorbAt, repointAt]
  case some r =>
    have ⟨hm, (hi : r.id = i)⟩ := Table.get?_eq_some.mp hr
    simp only [Option.bind_some, mergedRelationship]
    cases hf : fate σ.relationships m s r
    case kept =>
      rw [List.foldl_skip, List.foldl_skip, List.foldl_skip]
      all_goals grind [deleteAt, absorbAt, repointAt]
    case selfLoop =>
      have hr := hc.mem_selfLoops.mpr ⟨hm, hf⟩
      rw [List.foldl_hit (f := deleteAt i) (w := none) hr, List.foldl_skip, List.foldl_skip]
      all_goals grind [deleteAt, absorbAt, repointAt]
    case absorbed b =>
      have hr := hc.mem_collisions (c := ⟨r, b⟩) |>.mpr ⟨hm, hf⟩
      rw [List.foldl_skip (f := deleteAt i), List.foldl_hit (f := absorbAt now i) (w := none) hr,
        List.foldl_skip]
      all_goals grind [deleteAt, absorbAt, repointAt]
    case repointed =>
      have hr := hc.mem_safeRepoints.mpr ⟨hm, hf⟩
      rw [List.foldl_skip (f := deleteAt i), List.foldl_skip (f := absorbAt now i),
        List.foldl_hit (w := some (repointedRow m s now r)) hr]
      all_goals grind [deleteAt, absorbAt, repointAt]
    case absorbs a =>
      have ⟨ha', hf'⟩ := fate_absorbed_of_absorbs σ.relationship_natural hne hm hf
      have hr := hc.mem_collisions (c := ⟨a, r⟩) |>.mpr ⟨ha', hf'⟩
      rw [List.foldl_skip (f := deleteAt i),
        List.foldl_hit (f := absorbAt now i) (w := some (Tx.absorbedInto a r now)) hr,
        List.foldl_skip]
      all_goals grind [deleteAt, absorbAt, repointAt]

theorem Complete.foldl_evidence (i : Uuid) :
    (classified σ m s).collisions.foldl moveEvidenceAt
      ((classified σ m s).selfLoops.foldl deleteEvidenceAt (σ.relationshipEvidence.get? i)) =
    (σ.relationshipEvidence.get? i).bind (mergedEvidence σ.relationships m s) := by
  cases he : σ.relationshipEvidence.get? i
  case none =>
    rw [List.foldl_skip (f := deleteEvidenceAt), List.foldl_skip]
    all_goals simp [deleteEvidenceAt, moveEvidenceAt]
  case some e =>
    have ⟨r, hr⟩ : ∃ r, σ.relationships.get? e.relationshipId = some r :=
      Option.isSome_iff_exists.mp <| σ.evidence_relationship e (Table.get?_mem he) _ rfl
    have hl := fun x h => hc.selfLoops_get? (i := e.relationshipId) (r := x) h
    have ha := fun c h => hc.absorbed_get? (i := e.relationshipId) (c := c) h
    have ⟨hm, (hi : r.id = e.relationshipId)⟩ := Table.get?_eq_some.mp hr
    simp only [Option.bind_some, mergedEvidence, hr, Option.map_some]
    cases hf : fate σ.relationships m s r
    case selfLoop =>
      have hr := hc.mem_selfLoops.mpr ⟨hm, hf⟩
      rw [List.foldl_hit (f := deleteEvidenceAt) (w := none) hr, List.foldl_skip]
      all_goals simp [deleteEvidenceAt, moveEvidenceAt, Option.filter, hi]
      grind
    case absorbed b =>
      have hr := hc.mem_collisions (c := ⟨r, b⟩) |>.mpr ⟨hm, hf⟩
      have hn := hc.independent hne |>.absorber _ hr
      rw [List.foldl_skip (f := deleteEvidenceAt), List.foldl_hit (w := some (moveTo b.id e)) hr]
      · rfl
      all_goals simp [deleteEvidenceAt, moveEvidenceAt, Option.filter, hi]
      all_goals grind
    all_goals
      rw [List.foldl_skip (f := deleteEvidenceAt), List.foldl_skip]
      all_goals simp [deleteEvidenceAt, moveEvidenceAt, Option.filter]
      all_goals grind

section Absorbed

variable {tx : Tx} {now : Timestamp} (h : (classified σ m s).collisions.foldlM
  (Tx.absorbCollision now) ((classified σ m s).selfLoops.foldl Tx.deleteSelfLoop { db := σ }) = .ok tx)
include h

omit hc hne in
theorem Complete.absorbed_relationships (i : Uuid) : tx.db.relationships.get? i =
    (classified σ m s).collisions.foldl (absorbAt now i)
      ((classified σ m s).selfLoops.foldl (deleteAt i) (σ.relationships.get? i)) := by
  let v (tx : Tx) := tx.db.relationships.get? i
  have h₁ := List.foldlM_view (v := v) (g := absorbAt now i) h fun _ _ _ _ hc =>
    Tx.absorbCollision_relationships hc
  have h₂ := List.foldl_view (v := v) (g := deleteAt i) (b := { db := σ })
    (l := (classified σ m s).selfLoops) fun _ _ _ => Tx.deleteSelfLoop_relationships
  rw [h₂] at h₁
  exact h₁

theorem Complete.absorbed_evidence (i : Uuid) : tx.db.relationshipEvidence.get? i =
    (σ.relationshipEvidence.get? i).bind (mergedEvidence σ.relationships m s) := by
  let v (tx : Tx) := tx.db.relationshipEvidence.get? i
  have h₁ := List.foldlM_view (v := v) (g := moveEvidenceAt) h fun _ _ c hm hc' =>
    Tx.absorbCollision_evidence hc' (hc.independent hne |>.absorber c hm c hm)
  have h₂ := List.foldl_view (v := v) (g := deleteEvidenceAt) (b := { db := σ })
    (l := (classified σ m s).selfLoops) fun _ _ _ => Tx.deleteSelfLoop_evidence
  rw [h₂] at h₁
  exact h₁.trans <| hc.foldl_evidence hne i

theorem Complete.absorbed_mergedRelationships :
    tx.mergedRelationships = (classified σ m s).selfLoops.map selfLoopEntry ++
      (classified σ m s).collisions.map (collisionEntry σ) ∧
    ∀ c ∈ (classified σ m s).collisions,
      (σ.listRelationshipEvidence c.absorbed.id mergeRefCap).length < mergeRefCap := by
  have hd : ∀ c ∈ (classified σ m s).collisions,
      ((classified σ m s).selfLoops.foldl Tx.deleteSelfLoop { db := σ }).db.listRelationshipEvidence
        c.absorbed.id mergeRefCap = σ.listRelationshipEvidence c.absorbed.id mergeRefCap := by
    refine fun c hm => Tx.foldl_deleteSelfLoop_listEvidence fun r hr he => ?_
    have ⟨h₁, hf₁⟩ := hc.selfLoops_get? hr he
    have ⟨h₂, hf₂⟩ := hc.absorbed_get? hm rfl
    simp_all
  have ⟨hm, hl⟩ := Tx.foldlM_absorbCollision_mergedRelationships (hc.independent hne) h hd
  exact ⟨by simpa [Tx.foldl_deleteSelfLoop_mergedRelationships] using hm, hl⟩

end Absorbed

end Pointwise

-- What a merge of `merged` into `survivor` writes, table by table.
structure Executed (σ σ' : Store) (survivor merged : Entity) (ctx : Context) (h : MergeHistory) :
    Prop where
  complete : Complete σ merged.id survivor.id
  relationships (i) : σ'.relationships.get? i = (σ.relationships.get? i).bind
    (mergedRelationship σ.relationships merged.id survivor.id ctx.now)
  evidence (i) : σ'.relationshipEvidence.get? i = (σ.relationshipEvidence.get? i).bind
    (mergedEvidence σ.relationships merged.id survivor.id)
  aliases (i) : σ'.entityAliases.get? i = (σ.entityAliases.get? i).map fun a =>
    if a.entityId = merged.id then { a with entityId := survivor.id } else a
  identifiers (i) : σ'.entityIdentifiers.get? i = (σ.entityIdentifiers.get? i).map fun a =>
    if a.entityId = merged.id then { a with entityId := survivor.id } else a
  extractions (i) : σ'.entityExtractions.get? i = (σ.entityExtractions.get? i).map fun a =>
    if a.entityId = merged.id then { a with entityId := survivor.id } else a
  entities        : σ'.entities = σ.entities.put { merged with mergedInto := some survivor.id }
  mergeHistory    : σ'.mergeHistory = σ.mergeHistory.put h
  documents       : σ'.documents = σ.documents
  provenance      : σ'.provenance = σ.provenance
  duplicateGroups : σ'.duplicateGroups = σ.duplicateGroups
  rawEvidence     : σ'.rawEvidence = σ.rawEvidence
  sources         : σ'.sources = σ.sources
  id              : h.id = ctx.id
  survivorId      : h.survivorId = survivor.id
  mergedId        : h.mergedId = merged.id
  undoneAt        : h.undoneAt = none
  references (r) : r ∈ h.repointedReferences ↔
    (∃ rel ∈ σ.relationships, fate σ.relationships merged.id survivor.id rel = .repointed ∧
      r ∈ Tx.relationshipReference merged.id rel) ∨
    (∃ a ∈ σ.entityAliases, a.entityId = merged.id ∧
      r = repointed "entity_aliases" a.id "entity_id" merged.id) ∨
    (∃ i ∈ σ.entityIdentifiers, i.entityId = merged.id ∧
      r = repointed "entity_identifiers" i.id "entity_id" merged.id) ∨
    (∃ x ∈ σ.entityExtractions, x.entityId = merged.id ∧
      r = repointed "entity_extractions" x.id "entity_id" merged.id)
  entries (mr) : mr ∈ h.mergedRelationships ↔
    (∃ rel ∈ σ.relationships, fate σ.relationships merged.id survivor.id rel = .selfLoop ∧
      mr = selfLoopEntry rel) ∨
    (∃ a ∈ σ.relationships, ∃ b, fate σ.relationships merged.id survivor.id a = .absorbed b ∧
      mr = collisionEntry σ ⟨a, b⟩)
  moved : ∀ a ∈ σ.relationships, ∀ b,
    fate σ.relationships merged.id survivor.id a = .absorbed b →
      (σ.listRelationshipEvidence a.id mergeRefCap).length < mergeRefCap

theorem executeInTx_executed {σ σ' : Store} {survivor merged : Entity} {ctx : Context}
    {h : MergeHistory} {changes : List RelationshipChange} (hne : merged.id ≠ survivor.id)
    (he : executeInTx σ survivor merged ctx = .ok (σ', h, changes)) :
    Executed σ σ' survivor merged ctx h := by
  simp only [executeInTx, bind_eq_ok, pure_eq_ok, storage_eq_ok, rejectTruncated_eq_ok,
    Store.putEntity_eq_ok, Store.putMergeHistory_eq_ok] at he
  obtain ⟨_, ⟨hm, hm'⟩, _, ⟨hs, hs'⟩, _, ⟨ha, ha'⟩, _, ⟨hi, hi'⟩, _, ⟨hx, hx'⟩, tx₂, h₂, tx₃, h₃,
    tx₄, h₄, tx₅, h₅, tx₆, h₆, db, ⟨-, -, hd⟩, db', ⟨-, hd'⟩, he⟩ := he
  simp only [Prod.mk.injEq] at he
  subst hm' hs' ha' hi' hx'
  have hc : Complete σ merged.id survivor.id := ⟨hm, hs⟩
  obtain ⟨rfl, rfl, -⟩ := he
  obtain ⟨hr₃, hm₃, ht₃⟩ := Tx.repointRelationship_repoints.loop h₃
  obtain ⟨hr₄, hm₄, ht₄⟩ := Tx.repointAlias_repoints.loop h₄
  obtain ⟨hr₅, hm₅, ht₅⟩ := Tx.repointIdentifier_repoints.loop h₅
  obtain ⟨hr₆, hm₆, ht₆⟩ := Tx.repointExtraction_repoints.loop h₆
  have hw := Tx.foldlM_absorbCollision_withoutRelationships h₂
  rw [Tx.foldl_deleteSelfLoop_withoutRelationships] at hw
  simp only [Tables.withoutRelationships, Tables.mk.injEq, true_and] at hw
  obtain ⟨hen, hal, hid, hex, hmh, hdo, hpr, hdu, hra, hso⟩ := hw
  have hr₂ := Tx.foldlM_absorbCollision_repointedReferences h₂
  rw [Tx.foldl_deleteSelfLoop_repointedReferences] at hr₂
  simp only [ht₆, ht₅, ht₄, ht₃, hal, hid, hex, hen, hmh, hdo, hpr, hdu, hra, hso] at hd hd'
  have hr (i : Uuid) : db'.relationships.get? i = (σ.relationships.get? i).bind
      (mergedRelationship σ.relationships merged.id survivor.id ctx.now) := by
    rw [← hc.foldl_relationships hne, ← Complete.absorbed_relationships h₂, hd', hd]
    exact List.foldl_view (v := fun t : Table Relationship => t.get? i) fun t r _ => t.get?_put _ i
  obtain ⟨hm₂, hl⟩ := hc.absorbed_mergedRelationships hne h₂
  constructor
  case complete        => exact hc
  case relationships   => exact hr
  case evidence        => intro i; rw [hd', hd]; exact hc.absorbed_evidence hne h₂ i
  case entities        => rw [hd', hd]
  case mergeHistory    => rw [hd', hd]
  case documents       => rw [hd', hd]
  case provenance      => rw [hd', hd]
  case duplicateGroups => rw [hd', hd]
  case rawEvidence     => rw [hd', hd]
  case sources         => rw [hd', hd]
  case aliases =>
    intro i
    rw [hd', hd]
    exact Table.get?_foldl_put (by simp) (fun _ => Store.mem_listEntityAliasesByEntity ha) i
  case identifiers =>
    intro j
    rw [hd', hd]
    exact Table.get?_foldl_put (by simp) (fun _ => Store.mem_listEntityIdentifiersByEntity hi) j
  case extractions =>
    intro i
    rw [hd', hd]
    exact Table.get?_foldl_put (by simp) (fun _ => Store.mem_listEntityExtractionsByEntity hx) i
  case references =>
    intro r
    have hsafe := fun r => hc.mem_safeRepoints (r := r)
    simp only [classified] at hsafe
    simp only [hr₆, hr₅, hr₄, hr₃, hr₂, List.mem_append, List.mem_flatMap, List.mem_singleton,
      List.not_mem_nil, false_or, or_assoc, hsafe, Store.mem_listEntityAliasesByEntity ha,
      Store.mem_listEntityIdentifiersByEntity hi, Store.mem_listEntityExtractionsByEntity hx,
      and_assoc]
  case entries =>
    intro mr
    simp only [hm₆, hm₅, hm₄, hm₃, hm₂, List.mem_append, List.mem_map, hc.mem_selfLoops,
      hc.mem_collisions, and_assoc, eq_comm (b := mr)]
    refine or_congr_right ⟨?_, ?_⟩
    · rintro ⟨c, hm, hf, he⟩
      exact ⟨c.absorbed, hm, c.absorber, hf, he⟩
    · rintro ⟨a, hm, b, hf, he⟩
      exact ⟨⟨a, b⟩, hm, hf, he⟩
  case moved =>
    intro a ha b hf
    exact hl ⟨a, b⟩ <| hc.mem_collisions.mpr ⟨ha, hf⟩
  all_goals rfl

def MergedInto (σ : Store) (a b : EntityId) : Prop :=
  ∃ e, σ.entities.get? a = some e ∧ e.mergedInto = some b

theorem mergedInto_iff {σ : Store} {a b : EntityId} :
    MergedInto σ a b ↔ (σ.entities.get? a).bind Entity.mergedInto = some b :=
  Option.bind_eq_some_iff.symm

instance {σ : Store} {a b : EntityId} : Decidable (MergedInto σ a b) :=
  decidable_of_iff _ mergedInto_iff.symm

theorem Executed.mergedInto {σ σ' : Store} {survivor merged : Entity} {ctx : Context}
    {h : MergeHistory} (he : Executed σ σ' survivor merged ctx h) {a b : EntityId} :
    MergedInto σ' a b ↔ if a = merged.id then b = survivor.id else MergedInto σ a b := by
  unfold MergedInto
  simp only [he.entities, Table.get?_put, Entity.key_eq, eq_comm (a := merged.id)]
  split_ifs <;> simp [eq_comm]

-- The checks which `executeMerge` makes before its transaction.
structure Checked (σ : Store) (survivorId mergedId : EntityId) (survivor merged : Entity) : Prop where
  ne                : mergedId ≠ survivorId
  get_survivor      : σ.entities.get? survivorId = some survivor
  get_merged        : σ.entities.get? mergedId = some merged
  type              : survivor.entityType = merged.entityType
  survivor_unmerged : survivor.mergedInto = none
  merged_unmerged   : merged.mergedInto = none

namespace Checked

variable {σ : Store} {survivorId mergedId : EntityId} {survivor merged : Entity}
  (h : Checked σ survivorId mergedId survivor merged)
include h

theorem survivor_id : survivor.id = survivorId :=
  Table.get?_key h.get_survivor

theorem merged_id : merged.id = mergedId :=
  Table.get?_key h.get_merged

theorem ids_ne : merged.id ≠ survivor.id :=
  h.merged_id ▸ h.survivor_id ▸ h.ne

end Checked

theorem checkEntities_eq_ok {survivor merged : Entity} {u : Unit} :
    checkEntities survivor merged = .ok u ↔ survivor.entityType = merged.entityType ∧
      survivor.mergedInto = none ∧ merged.mergedInto = none := by
  unfold checkEntities
  split_ifs with ht
  case pos => simp [ht]
  case neg => split <;> simp_all

theorem executeMergeWithAudit_eq_ok {σ : Store} {survivorId mergedId : EntityId} {ctx : Context}
    {x : Store × MergeHistory × List RelationshipChange} :
    executeMergeWithAudit σ survivorId mergedId ctx = .ok x ↔ ∃ survivor merged,
      Checked σ survivorId mergedId survivor merged ∧ executeInTx σ survivor merged ctx = .ok x := by
  unfold executeMergeWithAudit
  split_ifs with h
  case pos =>
    simp only [Except.throw_eq, bind_eq_ok, reduceCtorEq, false_and, exists_false, false_iff]
    rintro ⟨_, _, hc, _⟩
    exact hc.ne h.symm
  case neg =>
    simp only [bind_eq_ok, requireEntity, orThrow_eq_ok, Store.getEntity, checkEntities_eq_ok,
      exists_const]
    constructor
    case mp =>
      rintro ⟨s, hs, m, hm, ⟨ht, hsu, hmu⟩, he⟩
      exact ⟨s, m, ⟨Ne.symm h, hs, hm, ht, hsu, hmu⟩, he⟩
    case mpr =>
      rintro ⟨s, m, hc, he⟩
      exact ⟨s, hc.get_survivor, m, hc.get_merged,
        ⟨hc.type, hc.survivor_unmerged, hc.merged_unmerged⟩, he⟩

end Merge

namespace Sample

def threePeople : Table Entity :=
  ⟨[person 1 "a", person 2 "b", person 3 "c"], by decide⟩

end Sample
