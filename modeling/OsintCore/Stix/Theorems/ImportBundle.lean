import OsintCore.Stix.Theorems.ImportRelationships

namespace Stix.StixWorker

variable {w : StixWorker} {ctx : ImportContext} {σ : Store} {bundle : StixBundle}

section Plan

def relationshipOf : StixObject → Option MappedRelationship
  | .relationship rel => some (stixRelationshipToCore rel)
  | _                 => none

theorem planObjects_eq (w : StixWorker) (objects : List StixObject) (p : PlannedBundle) :
    (objects.foldl w.planObject p).entities =
      p.entities ++ objects.filterMap (stixObjectToEntity w.lib) ∧
    (objects.foldl w.planObject p).relationships =
      p.relationships ++ objects.filterMap relationshipOf := by
  induction objects generalizing p
  case nil            => simp
  case cons obj l hi =>
    obtain ⟨he, hr⟩ := hi (w.planObject p obj)
    rw [List.foldl_cons, he, hr]
    have hp : (w.planObject p obj).entities =
          p.entities ++ (stixObjectToEntity w.lib obj).toList ∧
        (w.planObject p obj).relationships = p.relationships ++ (relationshipOf obj).toList := by
      cases obj
      case relationship rel => simp [planObject, stixObjectToEntity, relationshipOf]
      all_goals
        simp only [planObject, relationshipOf]
        split
        case h_1 hm => simp [hm]
        case h_2 hm => simp [hm]
    rw [hp.left, hp.right]
    cases hm : stixObjectToEntity w.lib obj <;> cases hr : relationshipOf obj <;> simp [hm, hr]

end Plan

-- The objects of a bundle which become entities, and the ids of these.

def mappedOf (w : StixWorker) (bundle : StixBundle) : List MappedEntity :=
  bundle.objects.filterMap (stixObjectToEntity w.lib)

def relationshipsOf (bundle : StixBundle) : List MappedRelationship :=
  bundle.objects.filterMap relationshipOf

def uniqueIds (w : StixWorker) (bundle : StixBundle) : List EntityId :=
  (w.mappedOf bundle).map (fun m => w.entityId m.entityType m.normalizedName) |>.dedup

theorem planBundle_eq (w : StixWorker) (bundle : StixBundle) :
    ((w.uniqueIds bundle).length ≤ w.maxObjectsPerTx ∧ ∃ planned,
        w.planBundle bundle = .ok planned ∧ planned.entities = w.mappedOf bundle ∧
          planned.relationships = relationshipsOf bundle) ∨
      w.maxObjectsPerTx < (w.uniqueIds bundle).length ∧ w.planBundle bundle =
        .error (.tooManyObjects (w.uniqueIds bundle).length w.maxObjectsPerTx) := by
  obtain ⟨he, hr⟩ := planObjects_eq w bundle.objects {}
  have hu : ((bundle.objects.foldl w.planObject {}).entities.map
      fun m => w.entityId m.entityType m.normalizedName).dedup = w.uniqueIds bundle := by
    rw [he]
    rfl
  simp only [planBundle, hu]
  split_ifs with hm
  case pos => exact .inr ⟨hm, rfl⟩
  case neg => exact .inl ⟨not_lt.mp hm, _, rfl, he, hr⟩

-- Rows with an id which is derived from a natural key have this key: all writers derive the ids, and
-- only a merge changes the keys of rows which exist.
structure Derived (w : StixWorker) (σ : Store) : Prop where
  entities      : ∀ e ∈ σ.entities, ∀ k, w.EntityDerived k e.id → e.naturalKey = k
  identifiers   : ∀ i ∈ σ.entityIdentifiers, ∀ k, w.IdentifierDerived k i.id → i.naturalKey = k
  relationships : ∀ r ∈ σ.relationships, ∀ k, w.RelationshipDerived k r.id → r.naturalKey = k

def catalogueOf (σ : Store) : Catalogue where
  entities          := σ.entities
  entityIdentifiers := σ.entityIdentifiers
  stixToEntity      := fun _ => none

theorem Derived.wellNamed (h : w.Derived σ) : (catalogueOf σ).WellNamed w where
  entities    := ⟨σ.entity_natural, h.entities⟩
  identifiers := ⟨σ.identifier_natural, h.identifiers⟩

theorem Derived.named (h : w.Derived σ) :
    σ.relationships.Named Relationship.naturalKey w.RelationshipDerived :=
  ⟨σ.relationship_natural, h.relationships⟩

-- What the import of a bundle writes.

def imported (w : StixWorker) (ctx : ImportContext) (σ : Store) (bundle : StixBundle) : Catalogue :=
  (w.mappedOf bundle).foldl (w.add ctx) (catalogueOf σ)

def edgesOf (w : StixWorker) (ctx : ImportContext) (σ : Store) (bundle : StixBundle) :
    List EdgeKey :=
  (relationshipsOf bundle).filterMap (edgeOf (w.imported ctx σ bundle).stixToEntity)

-- The outcome of an import.
inductive Outcome (w : StixWorker) (ctx : ImportContext) (σ : Store) (bundle : StixBundle) :
    Except ImportError ImportTx → Prop
  | tooMany (h : w.maxObjectsPerTx < (w.uniqueIds bundle).length) :
    Outcome w ctx σ bundle
      (.error (.tooManyObjects (w.uniqueIds bundle).length w.maxObjectsPerTx))
  | conflict (h : (w.uniqueIds bundle).length ≤ w.maxObjectsPerTx)
    (hh : ∃ k ∈ w.edgesOf ctx σ bundle, w.Held σ.relationships k) :
    Outcome w ctx σ bundle (.error (.storage .conflict))
  | ok (tx : ImportTx) (h : (w.uniqueIds bundle).length ≤ w.maxObjectsPerTx)
    (hh : ∀ k ∈ w.edgesOf ctx σ bundle, ¬w.Held σ.relationships k)
    (hc : tx.catalogue = w.imported ctx σ bundle)
    (hr : tx.db.relationships =
      (w.edgesOf ctx σ bundle).foldl (w.addEdge ctx.now) σ.relationships)
    (hk : tx.db.rawEvidence = σ.rawEvidence) : Outcome w ctx σ bundle (.ok tx)

theorem importBundle_outcome (ctx : ImportContext) (hw : Function.Injective w.newV5)
    (hd : w.Derived σ) (he : (σ.rawEvidence.get? ctx.rawEvidenceId).isSome) (bundle : StixBundle) :
    Outcome w ctx σ bundle (w.importBundle ctx σ bundle) := by
  unfold importBundle
  obtain ⟨hu, planned, hp, hm, hr⟩ | ⟨hu, hp⟩ := planBundle_eq w bundle
  case inr =>
    rw [hp]
    exact .tooMany hu
  case inl =>
    obtain ⟨tx₁, h₁, hc₁, hr₁, hk₁⟩ := importEntities_eq w planned.entities { db := σ } he
    have hc : tx₁.catalogue = w.imported ctx σ bundle := by rw [hc₁, hm]; rfl
    have hs : tx₁.stixToEntity = (w.imported ctx σ bundle).stixToEntity := by rw [← hc]; rfl
    have ht : w.importPlanned ctx σ planned =
        planned.relationships.foldlM (w.importRelationship ctx) tx₁ := by
      rw [importPlanned, h₁]
      rfl
    rw [hp]
    change Outcome w ctx σ bundle (w.importPlanned ctx σ planned)
    rw [ht]
    have he₁ : (tx₁.db.rawEvidence.get? ctx.rawEvidenceId).isSome := hk₁ ▸ he
    have hn₁ : tx₁.db.relationships.Named Relationship.naturalKey w.RelationshipDerived :=
      hr₁ ▸ hd.named
    obtain ⟨hh, tx₂, h₂⟩ | ⟨hh, h₂⟩ := importRelationships_eq hw planned.relationships hn₁ he₁
    case inl =>
      have hl := importRelationships_ok he₁ h₂
      rw [h₂]
      rw [hs, hr] at hl hh
      rw [hr₁] at hh
      exact .ok tx₂ hu hh (hl.catalogue.trans hc) (hr₁ ▸ hl.relationships)
        (hl.rawEvidence.trans hk₁)
    case inr =>
      rw [h₂]
      rw [hs, hr, hr₁] at hh
      exact .conflict hu hh

end Stix.StixWorker
