import OsintCore.Extraction.Theorems.Steps
import OsintCore.Stix.Import
import OsintCore.Table.Natural

namespace Store

theorem findEntityByNormalizedName_eq_owner {σ : Store} {type : EntityType} {name : String} :
    σ.findEntityByNormalizedName type name = σ.entities.owner Entity.naturalKey (type, name) := by
  simp [findEntityByNormalizedName, Table.owner, Entity.naturalKey]

theorem findEntityIdentifierOwner_eq_owner {σ : Store} {ns value : String} :
    σ.findEntityIdentifierOwner ns value =
      σ.entityIdentifiers.owner EntityIdentifier.naturalKey (ns, value) := by
  simp [findEntityIdentifierOwner, Table.owner, EntityIdentifier.naturalKey]

end Store

namespace Stix

theorem StixId.eq_of_text {a b : StixId} (h : a.text = b.text) : a = b := by
  cases a
  cases b
  cases h
  rfl

def MappedEntity.naturalKey (m : MappedEntity) : NaturalKey :=
  (m.entityType, m.normalizedName)

namespace StixWorker

variable (w : StixWorker)

-- The primary keys which are derived from the natural ones.

def EntityDerived (k : NaturalKey) (id : EntityId) : Prop :=
  id = w.entityId k.fst k.snd

def IdentifierDerived (k : String × String) (id : EntityIdentifierId) : Prop :=
  ∃ e, id = w.identifierId k.fst e k.snd

def RelationshipDerived (k : ObjectId × RelationshipType × ObjectId) (id : RelationshipId) : Prop :=
  id = w.relationshipId k.fst k.snd.fst k.snd.snd

-- What the loop over the entities reads and writes.
structure Catalogue where
  entities          : Table Entity
  entityIdentifiers : Table EntityIdentifier
  stixToEntity      : StixId → Option EntityId

structure Catalogue.WellNamed (c : Catalogue) : Prop where
  entities    : c.entities.Named Entity.naturalKey w.EntityDerived
  identifiers : c.entityIdentifiers.Named EntityIdentifier.naturalKey w.IdentifierDerived

variable (ctx : ImportContext)

-- What is written for an object.

def entityFor (c : Catalogue) (m : MappedEntity) : Entity :=
  w.upserted (c.entities.owner Entity.naturalKey m.naturalKey) m ctx.now

def identifierFor (c : Catalogue) (m : MappedEntity) : EntityIdentifier :=
  w.stixIdentifier (w.entityFor ctx c m) m ctx.sourceId

def add (c : Catalogue) (m : MappedEntity) : Catalogue where
  entities          := c.entities.put (w.entityFor ctx c m)
  entityIdentifiers :=
    c.entityIdentifiers.putNew EntityIdentifier.naturalKey (w.identifierFor ctx c m)
  stixToEntity      :=
    Function.update c.stixToEntity m.stixId (some (w.entityFor ctx c m).id)

end StixWorker

def ImportTx.catalogue (tx : ImportTx) : StixWorker.Catalogue where
  entities          := tx.db.entities
  entityIdentifiers := tx.db.entityIdentifiers
  stixToEntity      := tx.stixToEntity

namespace StixWorker

variable {w : StixWorker} {ctx : ImportContext} {db : Store} {m : MappedEntity}

-- An entity is never refused: it keeps its natural key, or takes one which nobody has.
theorem upsertEntity_eq (w : StixWorker) (db : Store) (m : MappedEntity) (now : Timestamp) :
    ∃ db', w.upsertEntity db m now =
        .ok (w.upserted (db.entities.owner Entity.naturalKey m.naturalKey) m now, db') ∧
      db'.toTables = { db.toTables with
        entities := db.entities.put <|
          w.upserted (db.entities.owner Entity.naturalKey m.naturalKey) m now } := by
  have hp : ∃ db', db.putEntity
      (w.upserted (db.entities.owner Entity.naturalKey m.naturalKey) m now) = .ok db' := by
    cases ho : db.entities.owner Entity.naturalKey m.naturalKey
    case none   => exact Store.exists_putEntity (fun b hb _ _ he =>
      Table.owner_eq_none.mp ho b hb (Option.some.inj he)) (by simp [upserted])
    case some e =>
      obtain ⟨hm, hk⟩ := db.entity_natural.owner_eq_some.mp ho
      exact Store.exists_putEntity (db.entity_natural.admits hm rfl (congrArg some hk)) fun i hi =>
        Table.isSome_get?_put <| db.merged_into e hm i hi
  obtain ⟨db', hp⟩ := hp
  refine ⟨db', ?_, (Store.putEntity_eq_ok.mp hp).right.right⟩
  simp only [upsertEntity, Store.findEntityByNormalizedName_eq_owner]
  rw [show (m.entityType, m.normalizedName) = m.naturalKey from rfl, hp]

theorem writeStixIdentifier_eq (w : StixWorker) (db : Store) (e : Entity) (m : MappedEntity)
    (sourceId : SourceId) (he : (db.entities.get? e.id).isSome) : ∃ db',
    w.writeStixIdentifier db e m sourceId = .ok db' ∧
      db'.toTables = { db.toTables with
        entityIdentifiers := db.entityIdentifiers.putNew EntityIdentifier.naturalKey
          (w.stixIdentifier e m sourceId) } := by
  simp only [writeStixIdentifier, Store.findEntityIdentifierOwner_eq_owner]
  rw [show (stixIdentifierNamespace, m.stixId.text) =
    (w.stixIdentifier e m sourceId).naturalKey from rfl]
  cases ho : db.entityIdentifiers.owner EntityIdentifier.naturalKey
    (w.stixIdentifier e m sourceId).naturalKey
  case some _ => exact ⟨db, rfl, by simp [Table.putNew, ho]⟩
  case none   =>
    obtain ⟨db', hp⟩ : ∃ db', db.putEntityIdentifier (w.stixIdentifier e m sourceId) = .ok db' :=
      Store.exists_putEntityIdentifier (fun b hb _ _ h =>
        Table.owner_eq_none.mp ho b hb (Option.some.inj h)) he
    refine ⟨db', by simp [hp], ?_⟩
    rw [(Store.putEntityIdentifier_eq_ok.mp hp).right.right]
    simp [Table.putNew, ho]

-- Claims of imports are refused only if the evidence is missing.
theorem putProvenance_eq (w : StixWorker) (ctx : ImportContext) (db : Store) (claims : Nat)
    (subject : ObjectId) (metadata : Json) (he : (db.rawEvidence.get? ctx.rawEvidenceId).isSome) :
    ∃ db', db.putProvenance (w.claimOf ctx claims subject metadata) = .ok db' ∧
      db'.toTables = { db.toTables with provenance := db'.provenance } := by
  have hn (action : String) (ha : actionStixImported ≠ action) :
      db.provenance.Admits (Provenance.subjectOf action)
        (w.claimOf ctx claims subject metadata) := by
    intro _ _ _ hs
    simp [Provenance.subjectOf, claimOf, ha] at hs
  have hr : ∀ i ∈ (w.claimOf ctx claims subject metadata).rawEvidenceId,
      (db.rawEvidence.get? i).isSome := by simpa [claimOf] using he
  obtain ⟨db', hp⟩ : ∃ db', db.putProvenance (w.claimOf ctx claims subject metadata) = .ok db' :=
    ⟨_, (dif_pos (hn _ (by decide))).trans <| (dif_pos (hn _ (by decide))).trans (dif_pos hr)⟩
  refine ⟨db', hp, ?_⟩
  have ht := (Store.putProvenance_eq_ok.mp hp).right.right.right
  rw [ht]

theorem importEntity_eq {tx : ImportTx} (he : (tx.db.rawEvidence.get? ctx.rawEvidenceId).isSome) :
    ∃ tx', w.importEntity ctx tx m = .ok tx' ∧ tx'.catalogue = w.add ctx tx.catalogue m ∧
      tx'.db.relationships = tx.db.relationships ∧ tx'.db.rawEvidence = tx.db.rawEvidence := by
  let e := w.entityFor ctx tx.catalogue m
  obtain ⟨db₁, h₁, ht₁⟩ := upsertEntity_eq w tx.db m ctx.now
  obtain ⟨db₂, h₂, ht₂⟩ := writeStixIdentifier_eq w db₁ e m ctx.sourceId
    (by simp [ht₁, e, entityFor, ImportTx.catalogue])
  obtain ⟨db₃, h₃, ht₃⟩ := putProvenance_eq w ctx db₂ tx.claims e.id (entityMetadata m)
    (by simpa [ht₂, ht₁] using he)
  have ht : db₃.toTables = { tx.db.toTables with
      entities          := tx.db.entities.put e
      entityIdentifiers := tx.db.entityIdentifiers.putNew EntityIdentifier.naturalKey
        (w.identifierFor ctx tx.catalogue m)
      provenance        := db₃.provenance } := by
    rw [ht₃, ht₂, ht₁]
    rfl
  let tx' : ImportTx := { tx with
    db              := db₃
    claims          := tx.claims + 1
    stixToEntity    := Function.update tx.stixToEntity m.stixId (some e.id)
    writtenEntities := tx.writtenEntities.insert e.id }
  refine ⟨tx', ?_, ?_, ?_, ?_⟩
  case refine_1 =>
    exact Except.bind_eq_ok.mpr ⟨_, h₁, Except.bind_eq_ok.mpr ⟨_, h₂, Except.bind_eq_ok.mpr
      ⟨_, Except.mapError_eq_ok.mpr h₃, rfl⟩⟩⟩
  case refine_2 =>
    have hi := congrArg Tables.entityIdentifiers ht
    have he := congrArg Tables.entities ht
    simp only at he hi
    simp [ImportTx.catalogue, tx', hi, he, add, e]
  case refine_3 => exact (congrArg Tables.relationships ht :)
  case refine_4 => exact (congrArg Tables.rawEvidence ht :)

theorem importEntities_eq (w : StixWorker) (l : List MappedEntity) (tx : ImportTx)
    (he : (tx.db.rawEvidence.get? ctx.rawEvidenceId).isSome) :
    ∃ tx', l.foldlM (w.importEntity ctx) tx = .ok tx' ∧
      tx'.catalogue = l.foldl (w.add ctx) tx.catalogue ∧
      tx'.db.relationships = tx.db.relationships ∧
      tx'.db.rawEvidence = tx.db.rawEvidence := by
  induction l generalizing tx
  case nil         => exact ⟨tx, rfl, rfl, rfl, rfl⟩
  case cons m l hi =>
    obtain ⟨tx₁, h₁, hc₁, hr₁, hk₁⟩ := importEntity_eq (w := w) (m := m) he
    obtain ⟨tx₂, h₂, hc₂, hr₂, hk₂⟩ := hi tx₁ (hk₁ ▸ he)
    refine ⟨tx₂, ?_, ?_, hr₂.trans hr₁, hk₂.trans hk₁⟩
    case refine_1 => exact Except.bind_eq_ok.mpr ⟨_, h₁, h₂⟩
    case refine_2 => rw [hc₂, hc₁, List.foldl_cons]

section Catalogue

variable {c : Catalogue} {m' : MappedEntity}

theorem entityFor_id {e : Entity}
    (h : c.entities.owner Entity.naturalKey m.naturalKey = some e) :
    (w.entityFor ctx c m).id = e.id := by
  simp [entityFor, h, upserted]

theorem fits_entityFor :
    c.entities.Fits Entity.naturalKey w.EntityDerived (w.entityFor ctx c m) := by
  unfold Table.Fits
  rw [show (w.entityFor ctx c m).naturalKey = m.naturalKey from rfl]
  split
  case h_1 e he => exact entityFor_id he
  case h_2 hn   =>
    simp only [EntityDerived, entityFor, hn, upserted, Option.elim_none, Entity.key_eq]
    rfl

theorem entityDerived_unique (hw : Function.Injective w.newV5) :
    ∀ x y i, w.EntityDerived x i → w.EntityDerived y i → x = y := by
  intro x y i hx hy
  have := hw (hx.symm.trans hy)
  simp only [V5Name.entity.injEq] at this
  exact Prod.ext this.left this.right

theorem identifierDerived_unique (hw : Function.Injective w.newV5) :
    ∀ x y i, w.IdentifierDerived x i → w.IdentifierDerived y i → x = y := by
  intro x y i ⟨_, hx⟩ ⟨_, hy⟩
  have := hw (hx.symm.trans hy)
  simp only [V5Name.identifier.injEq] at this
  exact Prod.ext this.left this.right.right

theorem identifierDerived {e : Entity} {sourceId : SourceId} :
    w.IdentifierDerived (w.stixIdentifier e m sourceId).naturalKey
      (w.stixIdentifier e m sourceId).id :=
  ⟨_, rfl⟩

theorem identifierFor_naturalKey :
    (w.identifierFor ctx c m).naturalKey = (stixIdentifierNamespace, m.stixId.text) :=
  rfl

theorem owner_add (h : c.WellNamed w) {k : NaturalKey} :
    (w.add ctx c m).entities.owner Entity.naturalKey k =
      if m.naturalKey = k then some (w.entityFor ctx c m)
      else c.entities.owner Entity.naturalKey k :=
  h.entities.owner_put fits_entityFor

theorem owner_identifier_add (h : c.WellNamed w) {k : String × String} :
    (w.add ctx c m).entityIdentifiers.owner EntityIdentifier.naturalKey k =
      if (w.identifierFor ctx c m).naturalKey = k then
        (c.entityIdentifiers.owner EntityIdentifier.naturalKey k).or
          (some (w.identifierFor ctx c m))
      else c.entityIdentifiers.owner EntityIdentifier.naturalKey k :=
  h.identifiers.owner_putNew identifierDerived

theorem Catalogue.WellNamed.add (hw : Function.Injective w.newV5) (h : c.WellNamed w) :
    (w.add ctx c m).WellNamed w where
  entities    := h.entities.put fits_entityFor (entityDerived_unique hw)
  identifiers := h.identifiers.putNew identifierDerived (identifierDerived_unique hw)

-- What identifies an entity does not change when it is written again.
theorem identifierFor_add (h : c.WellNamed w) :
    w.identifierFor ctx (w.add ctx c m) m' = w.identifierFor ctx c m' := by
  simp only [identifierFor, entityFor, owner_add h]
  split_ifs with hk
  case neg => rfl
  case pos =>
    obtain ⟨(ht : m.entityType = m'.entityType), (hn : m.normalizedName = m'.normalizedName)⟩ :=
      Prod.ext_iff.mp hk
    rw [hk]
    cases c.entities.owner Entity.naturalKey m'.naturalKey
    all_goals simp [stixIdentifier, upserted, ht, hn]

variable {l : List MappedEntity}

theorem Catalogue.WellNamed.foldl_add (hw : Function.Injective w.newV5) (h : c.WellNamed w) :
    (l.foldl (w.add ctx) c).WellNamed w :=
  List.foldl_invariant h fun _ _ _ => .add hw

theorem key_of_mem_filter {k : NaturalKey} (hm : m ∈ l.filter (·.naturalKey = k)) :
    m.naturalKey = k := by
  simpa using (List.mem_filter.mp hm).right

-- The objects of an entity are written to it one after another.
theorem owner_foldl (hw : Function.Injective w.newV5) (h : c.WellNamed w) {k : NaturalKey} :
    (l.foldl (w.add ctx) c).entities.owner Entity.naturalKey k =
      (l.filter (·.naturalKey = k)).foldl (fun e m => some (w.upserted e m ctx.now))
        (c.entities.owner Entity.naturalKey k) := by
  induction l generalizing c
  case nil         => rfl
  case cons m l hi =>
    rw [List.foldl_cons, hi (h.add hw), owner_add h, List.filter_cons]
    by_cases hk : m.naturalKey = k
    case pos =>
      subst hk
      simp [entityFor]
    case neg => simp [hk]

-- Which ids and identifiers are written does not depend on what has been written before: the first
-- object with an id gets the identifier, and the last one is what the relationships refer to.

theorem stixToEntity_foldl (hw : Function.Injective w.newV5) (h : c.WellNamed w) {id : StixId} :
    (l.foldl (w.add ctx) c).stixToEntity id = (l.reverse.findSome? fun m =>
      if m.stixId = id then some (w.identifierFor ctx c m).entityId else none).or
        (c.stixToEntity id) := by
  rw [← List.foldl_or_swap]
  induction l generalizing c
  case nil         => rfl
  case cons m l hi =>
    rw [List.foldl_cons, List.foldl_cons, hi (h.add hw)]
    simp only [identifierFor_add h]
    congr 1
    by_cases hm : m.stixId = id
    case pos =>
      rw [if_pos hm, ← hm]
      exact Function.update_self ..
    case neg =>
      rw [if_neg hm]
      exact Function.update_of_ne (Ne.symm hm) ..

theorem owner_identifier_foldl (hw : Function.Injective w.newV5) (h : c.WellNamed w)
    {k : String × String} :
    (l.foldl (w.add ctx) c).entityIdentifiers.owner EntityIdentifier.naturalKey k =
      (c.entityIdentifiers.owner EntityIdentifier.naturalKey k).or (l.findSome? fun m =>
        if (w.identifierFor ctx c m).naturalKey = k then some (w.identifierFor ctx c m)
        else none) := by
  rw [← List.foldl_or]
  induction l generalizing c
  case nil         => rfl
  case cons m l hi =>
    rw [List.foldl_cons, List.foldl_cons, hi (h.add hw), owner_identifier_add h]
    simp only [identifierFor_add h]
    congr 1
    split_ifs
    case pos => rfl
    case neg => exact Option.or_none.symm

end Catalogue

section Entity

variable {v : Option Entity} {l : List MappedEntity} {now : Timestamp}

-- What becomes of an entity by the objects which are written to it.
theorem foldl_upserted (hk : ∀ a ∈ l, a.naturalKey = m.naturalKey) :
    (m :: l).foldl (fun e m => some (w.upserted e m now)) v = some {
      id             := v.elim (w.entityId m.entityType m.normalizedName) (·.id)
      entityType     := m.entityType
      name           := v.elim m.name (·.name)
      normalizedName := m.normalizedName
      description    := (m :: l).foldl (fun d m => d.or m.description) (v >>= (·.description))
      confidence     := v.elim stixDefaultConfidence (max ·.confidence stixDefaultConfidence)
      firstSeen      := v.elim now (·.firstSeen)
      lastSeen       := now
      mergedInto     := v >>= (·.mergedInto)
      attributes     := .ofFields <| (m :: l).foldl (fun a m => a.overlay m.attributes.fields) <|
        v.elim ∅ (·.attributes.fields) } := by
  induction l generalizing m v
  case nil          => cases v <;> simp [upserted, mergedAttributes]
  case cons m' l hi =>
    obtain ⟨hm, hl⟩ := List.forall_mem_cons.mp hk
    obtain ⟨(ht : m'.entityType = m.entityType), (hn : m'.normalizedName = m.normalizedName)⟩ :=
      Prod.ext_iff.mp hm
    rw [List.foldl_cons, hi fun a ha => (hl a ha).trans hm.symm]
    cases v <;> simp [upserted, mergedAttributes, ht, hn]

theorem value_foldl_overlay {f : Fields Json} {key : String} :
    (l.foldl (fun f m => f.overlay m.attributes.fields) f).value key =
      (l.reverse.findSome? (·.attributes.get key)).or (f.value key) := by
  refine (List.foldl_view (v := (Fields.value · key))
    (g := fun d m => (m.attributes.get key).or d) fun f m _ => ?_).trans List.foldl_or_swap
  rw [Fields.value_overlay, Json.get_eq_value]

end Entity

end StixWorker

end Stix
