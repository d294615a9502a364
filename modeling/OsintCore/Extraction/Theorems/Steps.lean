import OsintCore.Extraction.Names
import OsintCore.Storage.Theorems.Put
import OsintCore.Storage.Theorems.Listing

open Resumption (ensures_bind ensures_read ensures_attempt ensures_write ensures_pure ensures_done)

namespace Store

variable {σ σ' : Store}

theorem findEntityByNormalizedName_eq_some {type : EntityType} {name : String} {e : Entity} :
    σ.findEntityByNormalizedName type name = some e ↔
      e ∈ σ.entities ∧ e.naturalKey = (type, name) := by
  unfold findEntityByNormalizedName
  rw [Table.find?_eq_some]
  · simp [Entity.naturalKey]
  · intro a ha b hb hpa hpb
    simp only [decide_eq_true_eq] at hpa hpb
    refine σ.entity_natural.eq ha hb (x := (type, name)) ?_ ?_ <;> simp_all [Entity.naturalKey]

theorem findEntityByNormalizedName_eq_none {type : EntityType} {name : String} :
    σ.findEntityByNormalizedName type name = none ↔
      ∀ e ∈ σ.entities, e.naturalKey ≠ (type, name) := by
  rw [findEntityByNormalizedName, Table.find?_eq_none]
  simp [Entity.naturalKey]

end Store

namespace EntityWorker

variable {w : EntityWorker} {σ : Store} {ctx : Context}

theorem ensures_put {f : Store → Except StorageError Store} {Q : Unit → Store → Prop}
    {E : EntityWorkerError → Store → Prop} : (put f).Ensures σ Q E ↔
      (∀ σ', f σ = .ok σ' → Q () σ') ∧ ∀ e, f σ = .error e → E (.storage e) σ := by
  simp [put, ensures_write]

theorem Names.ofStore_owner {k : NaturalKey} {id : EntityId} :
    (Names.ofStore σ).owner k = some id ↔ ∃ e ∈ σ.entities, e.naturalKey = k ∧ e.id = id := by
  simp [Names.ofStore, Store.findEntityByNormalizedName_eq_some, and_assoc]

-- The entity which is written takes the key.
theorem Names.owner_put {σ' : Store} {e : Entity} {n : Names}
    (h : σ'.entities = σ.entities.put e) (hn : n.owner = (Names.ofStore σ).owner) :
    (Names.ofStore σ').owner = (n.claim e.naturalKey e.id).owner := by
  funext k
  have hm {b : Entity} : b ∈ σ'.entities ↔ b = e ∨ b ∈ σ.entities ∧ b.id ≠ e.id := by
    simp [h, Table.mem_put]
  simp only [claim, hn]
  split_ifs with hk ho
  case pos => exact ofStore_owner.mpr ⟨e, hm.mpr <| .inl rfl, hk.symm, rfl⟩
  case pos =>
    rw [Option.eq_none_iff_forall_ne_some]
    intro id hi
    have ⟨b, hb, hbk, _⟩ := ofStore_owner.mp hi
    obtain rfl | ⟨hb, hne⟩ := hm.mp hb
    · exact hk hbk.symm
    · exact hne <| Option.some.inj <| (ofStore_owner.mpr ⟨b, hb, hbk, rfl⟩).symm.trans ho
  case neg =>
    ext id
    constructor
    · intro hi
      have ⟨b, hb, hbk, hbi⟩ := ofStore_owner.mp hi
      obtain rfl | ⟨hb, _⟩ := hm.mp hb
      · exact absurd hbk.symm hk
      · exact ofStore_owner.mpr ⟨b, hb, hbk, hbi⟩
    · intro hi
      have ⟨b, hb, hbk, hbi⟩ := ofStore_owner.mp hi
      exact ofStore_owner.mpr ⟨b, hm.mpr <| .inr ⟨hb, fun he => ho <| he ▸ hbi ▸ hi⟩, hbk, hbi⟩

-- An entity is never refused: it keeps its natural key, or takes one which nobody has.
theorem exists_putEntity_upserted (item : Extracted) (now : Timestamp) :
    ∃ σ', σ.putEntity (w.upserted
      (σ.findEntityByNormalizedName item.entityType item.normalizedName) item now) = .ok σ' := by
  cases h : σ.findEntityByNormalizedName item.entityType item.normalizedName
  case none =>
    have hn := Store.findEntityByNormalizedName_eq_none.mp h
    refine Store.exists_putEntity (fun b hb _ _ he => hn b hb ?_) nofun
    simpa [upserted, Entity.naturalKey] using he
  case some e =>
    have ⟨hm, hk⟩ := Store.findEntityByNormalizedName_eq_some.mp h
    refine Store.exists_putEntity (σ.entity_natural.admits hm rfl ?_) fun i hi => ?_
    · simpa [upserted, Entity.naturalKey] using hk
    · exact Table.isSome_get?_put <| σ.merged_into e hm i hi

theorem writeIdentifierIfApplicable_ensures {entity : Entity} {sourceId : Option SourceId} :
    (w.writeIdentifierIfApplicable entity sourceId).Ensures σ
      (fun _ σ' => (∀ i ∈ σ'.entityIdentifiers, i ∈ σ.entityIdentifiers ∨ i.entityId = entity.id) ∧
        σ'.toTables = { σ.toTables with entityIdentifiers := σ'.entityIdentifiers })
      fun _ _ => False := by
  unfold writeIdentifierIfApplicable
  split
  case h_1 => exact ⟨fun _ h => .inl h, rfl⟩
  case h_2 =>
    simp only [ensures_bind, ensures_attempt, ensures_pure]
    refine ⟨fun σ' h => ?_, fun e _ => ⟨fun _ h => .inl h, trivial⟩⟩
    obtain ⟨_, _, h⟩ := Store.putEntityIdentifier_eq_ok.mp h
    rw [h]
    refine ⟨fun i hi => ?_, rfl⟩
    obtain rfl | ⟨hi, _⟩ := Table.mem_put.mp hi
    · exact .inr rfl
    · exact .inl hi

-- What `upsertEntity` writes for an item.
structure Upserted (w : EntityWorker) (σ σ' : Store) (item : Extracted) (id : EntityId) : Prop where
  named       : id = (Names.ofStore σ).idOf w item.naturalKey
  owner       : (Names.ofStore σ').owner = ((Names.ofStore σ).claim item.naturalKey id).owner
  entity      : (σ'.entities.get? id).isSome
  entities    : ∀ i, (σ.entities.get? i).isSome → (σ'.entities.get? i).isSome
  identifiers : ∀ i ∈ σ'.entityIdentifiers, i ∈ σ.entityIdentifiers ∨ i.entityId = id
  frame       : σ'.toTables = { σ.toTables with
    entities          := σ'.entities
    entityIdentifiers := σ'.entityIdentifiers }

theorem upsertEntity_ensures {item : Extracted} {now : Timestamp} {sourceId : Option SourceId} :
    (w.upsertEntity item now sourceId).Ensures σ (fun id σ' => Upserted w σ σ' item id)
      fun _ _ => False := by
  unfold upsertEntity
  simp only [ensures_bind, ensures_read, ensures_attempt]
  obtain ⟨σ₁, h₁⟩ := exists_putEntity_upserted (w := w) (σ := σ) item now
  refine ⟨fun σ₁ h₁ => ?_, fun e he => by simp [h₁] at he⟩
  obtain ⟨_, _, h₁⟩ := Store.putEntity_eq_ok.mp h₁
  refine writeIdentifierIfApplicable_ensures.mono (fun _ σ₂ h => ?_) fun _ _ h => h
  obtain ⟨hi, hf⟩ := h
  generalize he : w.upserted _ item now = e at h₁ hi ⊢
  have hk : e.naturalKey = item.naturalKey := by rw [← he]; rfl
  have ht : σ₂.entities = σ.entities.put e := by
    have := congrArg Tables.entities hf
    simpa [h₁] using this
  refine {
    named       := ?_
    owner       := hk ▸ Names.owner_put ht rfl
    entity      := by simp [ht]
    entities    := fun i hi => by rw [ht]; exact Table.isSome_get?_put hi
    identifiers := by simpa [h₁] using hi
    frame       := by rw [hf, h₁] }
  rw [← he]
  simp only [Names.idOf, Names.ofStore, Extracted.naturalKey, upserted, List.lookup_nil,
    Option.getD_none]
  cases σ.findEntityByNormalizedName item.entityType item.normalizedName <;> rfl

-- The worker knows the entities by the names which the plan gives them.
structure Follows (n : Names) (p : Progress) (σ : Store) : Prop where
  owner     : (Names.ofStore σ).owner = n.owner
  entityIds : p.entityIds = n.entityIds
  written   : ∀ q ∈ n.entityIds, (σ.entities.get? q.snd).isSome

theorem Follows.ofStore : Follows (.ofStore σ) {} σ :=
  ⟨rfl, rfl, nofun⟩

-- A write which leaves the entities alone changes no name.
theorem Follows.frame {n : Names} {p p' : Progress} {σ' : Store} (h : Follows n p σ)
    (he : σ'.entities = σ.entities) (hp : p'.entityIds = p.entityIds) : Follows n p' σ' where
  owner     := by
    rw [← h.owner]
    funext k
    simp [Names.ofStore, Store.findEntityByNormalizedName, he]
  entityIds := hp.trans h.entityIds
  written   := he ▸ h.written

theorem resolveEntity_ensures {n : Names} {p : Progress} {item : Extracted} (h : Follows n p σ) :
    (w.resolveEntity ctx p item).Ensures σ
      (fun (id, p') σ' => id = n.idOf w item.naturalKey ∧ Follows (n.after w item.naturalKey) p' σ' ∧
        (σ'.entities.get? id).isSome ∧
        (∀ i ∈ σ'.entityIdentifiers, i ∈ σ.entityIdentifiers ∨ i.entityId = id) ∧
        σ'.toTables = { σ.toTables with
          entities          := σ'.entities
          entityIdentifiers := σ'.entityIdentifiers })
      fun _ _ => False := by
  unfold resolveEntity
  split
  case h_1 id hl =>
    rw [h.entityIds] at hl
    have ⟨_, _, hm, _⟩ := List.lookup_eq_some_iff.mp hl
    rw [ensures_pure]
    refine ⟨by simp [Names.idOf, hl], ?_, h.written (item.naturalKey, id) (by simp [hm]),
      fun i hi => .inl hi, rfl⟩
    simpa [Names.after, hl] using h
  case h_2 hl =>
    rw [h.entityIds] at hl
    rw [ensures_bind]
    refine upsertEntity_ensures.mono (fun id σ' hu => ?_) fun _ _ h => h
    have hid : id = n.idOf w item.naturalKey := by
      rw [hu.named, Names.idOf, Names.idOf, hl, h.owner]
      rfl
    rw [ensures_pure]
    refine ⟨hid, ?_, hu.entity, hu.identifiers, hu.frame⟩
    simp only [Names.after, hl, Option.isSome_none, Bool.false_eq_true, if_false, ← hid]
    refine ⟨hu.owner.trans ?_, ?_, ?_⟩
    · simp [Names.claim, h.owner]
    · simp [Names.claim, h.entityIds]
    · refine List.forall_mem_cons.mpr ⟨hu.entity, fun q hq => hu.entities _ <| h.written q hq⟩

theorem writeExtraction_ensures {id : EntityId} {item : Extracted}
    (h : (σ.entities.get? id).isSome) : (w.writeExtraction ctx id item).Ensures σ
      (fun _ σ' => σ'.toTables = { σ.toTables with
        entityExtractions := σ.entityExtractions.put (w.extractionOf ctx id item) })
      fun _ _ => False := by
  unfold writeExtraction
  rw [ensures_put]
  have ⟨σ₁, h₁⟩ := Store.exists_putEntityExtraction (x := w.extractionOf ctx id item) h
  refine ⟨fun σ' h' => ?_, fun e he => by simp [h₁] at he⟩
  exact Store.putEntityExtraction_eq_ok.mp h' |>.right

section Edges

variable {e : Edge}

-- The number of rows which `evidence_count` counts.
def evidenceRows (σ : Store) (id : RelationshipId) : Nat :=
  σ.relationshipEvidence.rows.countP (·.relationshipId = id)

theorem conflicts_nil_iff (existing : Option Relationship) (now : Timestamp) : w.Conflicts σ [] e ↔
    ¬σ.relationships.Admits (some <| Relationship.naturalKey ·)
      (w.upsertedRelationship existing e now) := by
  simp only [Conflicts, Table.Admits, List.not_mem_nil, false_implies, implies_true, and_true]
  simp [Relationship.naturalKey, Edge.naturalKey, upsertedRelationship, and_comm]

-- The edge has been written, together with the evidence for it.
structure EdgeWritten (w : EntityWorker) (ctx : Context) (σ σ' : Store) (e : Edge)
    (r : Relationship) : Prop where
  id            : r.id = w.edgeId e
  naturalKey    : r.naturalKey = e.naturalKey
  present       : ¬EvidenceMissing σ ctx
  evidenceCount : r.evidenceCount = Int32.ofNat (min 100 (evidenceRows σ' r.id))
  tables        : σ'.toTables = { σ.toTables with
    relationships        := σ.relationships.put r
    relationshipEvidence := σ.relationshipEvidence.put (w.evidenceOf ctx (w.edgeId e) e.item) }

theorem length_listRelationshipEvidence {id : RelationshipId} :
    (σ.listRelationshipEvidence id evidenceCountLimit).length = min 100 (evidenceRows σ id) := by
  simp [Store.listRelationshipEvidence, evidenceRows, evidenceCountLimit, Store.clampLimit,
    List.countP_eq_length_filter]

theorem writeEdge_ensures : (w.writeEdge ctx e).Ensures σ
    (fun id σ' => id = w.edgeId e ∧ ¬w.Conflicts σ [] e ∧ ¬EvidenceMissing σ ctx ∧
      ∃ r, EdgeWritten w ctx σ σ' e r)
    fun _ σ' => w.Conflicts σ [] e ∧ σ' = σ ∨
      ¬w.Conflicts σ [] e ∧ EvidenceMissing σ ctx ∧ ∃ r : Relationship, r.id = w.edgeId e ∧
        r.naturalKey = e.naturalKey ∧ r.evidenceCount = 0 ∧
        σ'.toTables = { σ.toTables with relationships := σ.relationships.put r } := by
  simp only [writeEdge, upsertRelationship, writeRelationshipEvidence, ensures_bind, ensures_read,
    ensures_put, ensures_pure]
  have hc := conflicts_nil_iff (w := w) (σ := σ) (e := e) (σ.getRelationship (w.edgeId e)) ctx.now
  constructor
  case right =>
    intro err he
    refine .inl ⟨hc.mpr fun ha => ?_, trivial⟩
    obtain ⟨σ₁, h₁⟩ := Store.exists_putRelationship ha
    simp [h₁] at he
  case left =>
    intro σ₁ h₁
    obtain ⟨ha, h₁⟩ := Store.putRelationship_eq_ok.mp h₁
    have hn : ¬w.Conflicts σ [] e := fun h => hc.mp h ha
    constructor
    case right =>
      intro err he
      refine .inr ⟨hn, ?_, _, rfl, rfl, rfl, h₁⟩
      by_contra hm
      obtain ⟨σ₂, h₂⟩ := Store.exists_putRelationshipEvidence (σ := σ₁)
        (e := w.evidenceOf ctx (w.edgeId e) e.item) (by simp [h₁, evidenceOf, upsertedRelationship]) <| by
          intro i hi
          rw [h₁, Option.isSome_iff_ne_none]
          exact fun h => hm ⟨i, hi, h⟩
      simp [h₂] at he
    case left =>
      intro σ₂ h₂
      obtain ⟨_, hm, h₂⟩ := Store.putRelationshipEvidence_eq_ok.mp h₂
      have hm : ¬EvidenceMissing σ ctx := by
        rintro ⟨i, hi, hg⟩
        have := hm i hi
        simp [h₁, hg] at this
      rw [length_listRelationshipEvidence]
      generalize hu : w.upsertedRelationship _ e ctx.now = u at h₁
      have hk : u.id = w.edgeId e := by rw [← hu]; rfl
      have hg : σ₂.getRelationship (w.edgeId e) = some u := by
        simp [Store.getRelationship, h₂, h₁, hk]
      have ht : σ₂.toTables = { σ.toTables with
          relationships        := σ.relationships.put u
          relationshipEvidence := σ.relationshipEvidence.put (w.evidenceOf ctx (w.edgeId e) e.item) } := by
        rw [h₂, h₁]
      have hl : u.naturalKey = e.naturalKey := by rw [← hu]; rfl
      simp only [hg]
      split_ifs with hne
      case neg => exact ⟨trivial, hn, hm, u, hk, hl, hm, by simpa [hk] using hne, ht⟩
      case pos =>
        rw [ensures_put]
        generalize hc' : counted u _ ctx.now = c
        have hck : c.id = u.id := by rw [← hc']; rfl
        have hcl : c.naturalKey = u.naturalKey := by rw [← hc']; rfl
        have hcc : c.evidenceCount = Int32.ofNat (min 100 (evidenceRows σ₂ (w.edgeId e))) := by
          rw [← hc']; rfl
        have ha₂ : σ₂.relationships.Admits (some <| Relationship.naturalKey ·) c :=
          σ₂.relationship_natural.admits (b := u) (Table.get?_mem hg) hck.symm (by simp [hcl])
        obtain ⟨σ₃, h₃⟩ := Store.exists_putRelationship ha₂
        refine ⟨fun σ₃ h₃ => ?_, fun err he => by simp [h₃] at he⟩
        obtain ⟨_, h₃⟩ := Store.putRelationship_eq_ok.mp h₃
        refine ⟨trivial, hn, hm, c, hck.trans hk, hcl.trans hl, hm, ?_, ?_⟩
        · simpa [hck, hk, evidenceRows, h₃] using hcc
        · rw [h₃, ht]
          simp [Table.put_put (t := σ.relationships) (a := u) (b := c) hck.symm]

end Edges

end EntityWorker
