import OsintCore.Stix.Theorems.ImportBundle

namespace Stix.StixWorker

variable {w : StixWorker} {ctx : ImportContext} {σ : Store} {bundle bundle' : StixBundle}

section Entity

variable {v : Option Entity} {l l' : List MappedEntity} {now : Timestamp}

-- The entities which the same objects make of another one in different orders: they agree but for
-- what the objects do not agree on.
structure Alike (v : Option Entity) (l : List MappedEntity) (e e' : Entity) : Prop where
  rest        : e' = { e with
    name        := e'.name
    description := e'.description
    attributes  := e'.attributes }
  name        : (v = none → ∀ a ∈ l, ∀ b ∈ l, a.name = b.name) → e'.name = e.name
  description : (v >>= (·.description) = none →
    ∀ a ∈ l, ∀ b ∈ l, ∀ d ∈ a.description, ∀ d' ∈ b.description, d = d') →
      e'.description = e.description
  attributes  : ∀ key,
    (∀ a ∈ l, ∀ b ∈ l, ∀ j ∈ a.attributes.get key, ∀ j' ∈ b.attributes.get key, j = j') →
      e'.attributes.get key = e.attributes.get key

theorem alike_foldl (hp : l.Perm l') (hk : ∀ a ∈ l, ∀ b ∈ l, a.naturalKey = b.naturalKey) :
    Option.Rel (Alike v l) (l.foldl (fun e m => some (w.upserted e m now)) v)
      (l'.foldl (fun e m => some (w.upserted e m now)) v) := by
  cases l
  case nil =>
    cases hp.nil_eq
    cases v
    case none   => exact .none
    case some e => exact .some ⟨rfl, fun _ => rfl, fun _ => rfl, fun _ _ => rfl⟩
  case cons m l =>
    cases l'
    case nil         => cases hp.eq_nil
    case cons m' l' =>
      have hm : m' ∈ m :: l := hp.mem_iff.mpr List.mem_cons_self
      obtain ⟨ht, hn⟩ : m'.entityType = m.entityType ∧ m'.normalizedName = m.normalizedName :=
        Prod.ext_iff.mp (hk m' hm m List.mem_cons_self)
      rw [foldl_upserted fun a ha => hk a (List.mem_cons_of_mem _ ha) m List.mem_cons_self,
        foldl_upserted fun a ha => hk a (hp.mem_iff.mpr (List.mem_cons_of_mem _ ha)) m' hm]
      refine .some ⟨?rest, fun h => ?name, fun h => ?description, fun key h => ?attributes⟩
      case rest => rw [ht, hn]
      case name =>
        cases v
        case none   => exact h rfl m' hm m List.mem_cons_self
        case some _ => rfl
      case description =>
        dsimp only
        rw [List.foldl_or, List.foldl_or]
        cases hd : v >>= (·.description)
        case none   => rw [hp.findSome?_eq (h hd)]
        case some _ => rfl
      case attributes =>
        have hr : (m :: l).reverse.Perm (m' :: l').reverse :=
          (List.reverse_perm _).trans <| hp.trans (List.reverse_perm _).symm
        have h := hr.findSome?_eq (f := (·.attributes.get key)) fun a ha b hb =>
          h a (List.mem_reverse.mp ha) b (List.mem_reverse.mp hb)
        simp only [Json.get_eq_value, Json.fields_ofFields, value_foldl_overlay] at h ⊢
        rw [h]

end Entity

-- All objects with this id become the same entity.
def Clear (w : StixWorker) (bundle : StixBundle) (id : StixId) : Prop :=
  ∀ a ∈ w.mappedOf bundle, ∀ b ∈ w.mappedOf bundle,
    a.stixId = id → b.stixId = id → a.naturalKey = b.naturalKey

def objectsOf (w : StixWorker) (bundle : StixBundle) (k : NaturalKey) : List MappedEntity :=
  (w.mappedOf bundle).filter (·.naturalKey = k)

def ClearRefs (w : StixWorker) (bundle : StixBundle) : Prop :=
  ∀ rel ∈ relationshipsOf bundle, w.Clear bundle rel.sourceRef ∧ w.Clear bundle rel.targetRef

-- What two imports have in common which go through the same objects in different orders: the
-- entities but for what the objects disagree on, and the identifiers and relationships whose objects
-- agree on the entities.
structure Reordered (w : StixWorker) (db : Store) (bundle : StixBundle) (σ τ : Store) : Prop where
  entities      : ∀ type name,
    Option.Rel (Alike (db.findEntityByNormalizedName type name) (w.objectsOf bundle (type, name)))
      (σ.findEntityByNormalizedName type name) (τ.findEntityByNormalizedName type name)
  identifiers   : ∀ ns value,
    (ns = stixIdentifierNamespace → db.findEntityIdentifierOwner ns value = none →
      ∀ id : StixId, id.text = value → w.Clear bundle id) →
      σ.findEntityIdentifierOwner ns value = τ.findEntityIdentifierOwner ns value
  relationships : w.ClearRefs bundle → σ.relationships = τ.relationships

theorem identifierFor_congr {c : Catalogue} {a b : MappedEntity} (hk : a.naturalKey = b.naturalKey)
    (hs : a.stixId = b.stixId) : w.identifierFor ctx c a = w.identifierFor ctx c b := by
  obtain ⟨(ht : a.entityType = b.entityType), (hn : a.normalizedName = b.normalizedName)⟩ :=
    Prod.ext_iff.mp hk
  simp only [identifierFor, stixIdentifier, entityFor, upserted, hk, ht, hn, hs]

section Perm

variable (hp : bundle'.objects.Perm bundle.objects)

include hp

theorem mappedOf_perm : (w.mappedOf bundle').Perm (w.mappedOf bundle) :=
  hp.filterMap _

theorem length_uniqueIds : (w.uniqueIds bundle').length = (w.uniqueIds bundle).length :=
  (((mappedOf_perm hp).map _).dedup).length_eq

variable (hw : Function.Injective w.newV5) (hd : w.Derived σ)

include hw hd

theorem owner_perm {k : NaturalKey} :
    Option.Rel (Alike (σ.entities.owner Entity.naturalKey k) (w.objectsOf bundle k))
      ((w.imported ctx σ bundle).entities.owner Entity.naturalKey k)
      ((w.imported ctx σ bundle').entities.owner Entity.naturalKey k) := by
  rw [imported, imported, owner_foldl hw hd.wellNamed, owner_foldl hw hd.wellNamed]
  refine alike_foldl ((mappedOf_perm hp).symm.filter _) fun a ha b hb => ?_
  exact (key_of_mem_filter ha).trans (key_of_mem_filter hb).symm

theorem owner_identifier_perm {k : String × String}
    (hc : k.fst = stixIdentifierNamespace →
      σ.entityIdentifiers.owner EntityIdentifier.naturalKey k = none →
        ∀ id : StixId, id.text = k.snd → w.Clear bundle id) :
    (w.imported ctx σ bundle).entityIdentifiers.owner EntityIdentifier.naturalKey k =
      (w.imported ctx σ bundle').entityIdentifiers.owner EntityIdentifier.naturalKey k := by
  rw [imported, imported, owner_identifier_foldl hw hd.wellNamed,
    owner_identifier_foldl hw hd.wellNamed]
  cases ho : (catalogueOf σ).entityIdentifiers.owner EntityIdentifier.naturalKey k
  case some _ => rfl
  case none   =>
    rw [Option.none_or, Option.none_or]
    refine (mappedOf_perm hp).symm.findSome?_eq fun a ha b hb x hx y hy => ?_
    simp only [Option.mem_def, Option.ite_none_right_eq_some, Option.some.injEq] at hx hy
    obtain ⟨hka, rfl⟩ := hx
    obtain ⟨hkb, rfl⟩ := hy
    rw [identifierFor_naturalKey] at hka hkb
    have hs : a.stixId = b.stixId :=
      StixId.eq_of_text <| (Prod.ext_iff.mp hka).right.trans (Prod.ext_iff.mp hkb).right.symm
    have hk := hc (congrArg Prod.fst hka).symm ho b.stixId (congrArg Prod.snd hkb) a ha b hb hs rfl
    exact identifierFor_congr hk hs

theorem stixToEntity_perm {id : StixId} (hc : w.Clear bundle id) :
    (w.imported ctx σ bundle').stixToEntity id = (w.imported ctx σ bundle).stixToEntity id := by
  rw [imported, imported, stixToEntity_foldl hw hd.wellNamed, stixToEntity_foldl hw hd.wellNamed]
  congr 1
  have hr : (w.mappedOf bundle).reverse.Perm (w.mappedOf bundle').reverse :=
    (List.reverse_perm _).trans <| (mappedOf_perm hp).symm.trans (List.reverse_perm _).symm
  refine (hr.findSome?_eq fun a ha b hb x hx y hy => ?_).symm
  simp only [Option.mem_def, Option.ite_none_right_eq_some, Option.some.injEq] at hx hy
  obtain ⟨hsa, rfl⟩ := hx
  obtain ⟨hsb, rfl⟩ := hy
  have hk := hc a (List.mem_reverse.mp ha) b (List.mem_reverse.mp hb) hsa hsb
  rw [identifierFor_congr hk (hsa.trans hsb.symm)]

theorem edgesOf_perm (hc : w.ClearRefs bundle) :
    (w.edgesOf ctx σ bundle').Perm (w.edgesOf ctx σ bundle) := by
  have he : (relationshipsOf bundle).filterMap (edgeOf (w.imported ctx σ bundle').stixToEntity) =
      w.edgesOf ctx σ bundle := by
    refine List.filterMap_congr fun rel hr => ?_
    rw [edgeOf, edgeOf, stixToEntity_perm hp hw hd (hc rel hr).left,
      stixToEntity_perm hp hw hd (hc rel hr).right]
  rw [← he]
  exact (hp.filterMap relationshipOf).filterMap _

end Perm

section Bundle

variable (hw : Function.Injective w.newV5) (hd : w.Derived σ)
  (he : (σ.rawEvidence.get? ctx.rawEvidenceId).isSome)

include hw hd he

theorem importBundle_eq_error {e : ImportError} : w.importBundle ctx σ bundle = .error e ↔
    w.maxObjectsPerTx < (w.uniqueIds bundle).length ∧
        e = .tooManyObjects (w.uniqueIds bundle).length w.maxObjectsPerTx ∨
      (w.uniqueIds bundle).length ≤ w.maxObjectsPerTx ∧
        (∃ k ∈ w.edgesOf ctx σ bundle, w.Held σ.relationships k) ∧ e = .storage .conflict := by
  have ho := importBundle_outcome ctx hw hd he bundle
  generalize w.importBundle ctx σ bundle = x at ho
  cases ho
  case tooMany h     => simp [h, not_le.mpr h, eq_comm]
  case conflict h hh => simp [not_lt.mpr h, h, hh, eq_comm]
  case ok h hh _ _ _ =>
    refine ⟨fun he => absurd he (by simp), fun he => ?_⟩
    obtain ⟨hn, _⟩ | ⟨_, ⟨k, hk, hn⟩, _⟩ := he
    · exact absurd h (not_le.mpr hn)
    · exact absurd hn (hh k hk)

theorem importBundle_rawEvidence {tx : ImportTx} (h : w.importBundle ctx σ bundle = .ok tx) :
    tx.db.rawEvidence = σ.rawEvidence := by
  have ho := importBundle_outcome ctx hw hd he bundle
  rw [h] at ho
  cases ho
  case ok _ _ _ _ hk => exact hk

theorem importBundle_reordered (hp : bundle'.objects.Perm bundle.objects)
    {claimId : Nat → ProvenanceId} {tx tx' : ImportTx} (h : w.importBundle ctx σ bundle = .ok tx)
    (h' : w.importBundle { ctx with claimId } σ bundle' = .ok tx') :
    Reordered w σ bundle tx.db tx'.db := by
  have ho := importBundle_outcome ctx hw hd he bundle
  have ho' := importBundle_outcome { ctx with claimId } hw hd he bundle'
  rw [h] at ho
  rw [h'] at ho'
  cases ho
  case ok _ hh hc hr _ =>
    cases ho'
    case ok _ hh' hc' hr' _ =>
      refine ⟨fun type name => ?_, fun ns value hcl => ?_, fun hcl => ?_⟩
      case refine_1 =>
        have he : tx.db.entities = (w.imported ctx σ bundle).entities :=
          (congrArg Catalogue.entities hc :)
        have he' : tx'.db.entities = (w.imported ctx σ bundle').entities :=
          (congrArg Catalogue.entities hc' :)
        simp only [Store.findEntityByNormalizedName_eq_owner]
        rw [he, he']
        exact owner_perm hp hw hd
      case refine_2 =>
        have hi : tx.db.entityIdentifiers = (w.imported ctx σ bundle).entityIdentifiers :=
          (congrArg Catalogue.entityIdentifiers hc :)
        have hi' : tx'.db.entityIdentifiers = (w.imported ctx σ bundle').entityIdentifiers :=
          (congrArg Catalogue.entityIdentifiers hc' :)
        simp only [Store.findEntityIdentifierOwner_eq_owner]
        rw [hi, hi']
        refine owner_identifier_perm hp hw hd fun hn ho => hcl hn ?_
        rwa [Store.findEntityIdentifierOwner_eq_owner]
      case refine_3 =>
        have hk : (w.edgesOf { ctx with claimId } σ bundle').Perm (w.edgesOf ctx σ bundle) :=
          edgesOf_perm hp hw hd hcl
        obtain ⟨hn, ho⟩ := foldl_addEdge hd.named ctx.now hw hh
        obtain ⟨hn', ho'⟩ := foldl_addEdge hd.named ctx.now hw hh'
        rw [hr, hr']
        refine hn.ext_owner hn' fun x => ?_
        rw [ho, ho']
        simp only [hk.mem_iff]

end Bundle

end Stix.StixWorker
