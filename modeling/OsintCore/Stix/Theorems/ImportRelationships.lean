import OsintCore.Stix.Theorems.ImportEntities

namespace Stix.StixWorker

variable {w : StixWorker} {ctx : ImportContext}

abbrev EdgeKey := ObjectId × RelationshipType × ObjectId

-- The ends of a relationship, if both are among the entities of the bundle.
def edgeOf (ids : StixId → Option EntityId) (rel : MappedRelationship) : Option EdgeKey :=
  match ids rel.sourceRef, ids rel.targetRef with
  | some source, some target => some (source, rel.relationshipType, target)
  | _, _                     => none

section Edges

variable (w)

def edgeId (k : EdgeKey) : RelationshipId :=
  w.relationshipId k.fst k.snd.fst k.snd.snd

def edgeFor (existing : Option CoreRelationship) (k : EdgeKey) (now : Timestamp) :
    CoreRelationship :=
  w.upsertedRelationship existing k.fst k.snd.fst k.snd.snd now

def addEdge (now : Timestamp) (t : Table CoreRelationship) (k : EdgeKey) : Table CoreRelationship :=
  t.put (w.edgeFor (t.get? (w.edgeId k)) k now)

-- Another relationship already has these ends.
def Held (t : Table CoreRelationship) (k : EdgeKey) : Prop :=
  ∃ r ∈ t.rows, r.naturalKey = k ∧ r.id ≠ w.edgeId k

end Edges

-- The loop over the relationships, and what it leaves alone.
structure Linked (w : StixWorker) (ctx : ImportContext) (tx tx' : ImportTx) (keys : List EdgeKey) :
    Prop where
  relationships : tx'.db.relationships = keys.foldl (w.addEdge ctx.now) tx.db.relationships
  catalogue     : tx'.catalogue = tx.catalogue
  rawEvidence   : tx'.db.rawEvidence = tx.db.rawEvidence

variable {tx : ImportTx} {rel : MappedRelationship} {k : EdgeKey}

theorem importRelationship_none (w : StixWorker) (ctx : ImportContext)
    (h : edgeOf tx.stixToEntity rel = none) :
    ∃ tx', w.importRelationship ctx tx rel = .ok tx' ∧ Linked w ctx tx tx' [] := by
  have hl {tx'} (he : tx' = { tx with skippedRelationships := tx.skippedRelationships + 1 }) :
      Linked w ctx tx tx' [] :=
    he ▸ ⟨rfl, rfl, rfl⟩
  cases hs : tx.stixToEntity rel.sourceRef <;> cases ht : tx.stixToEntity rel.targetRef
  case some.some => simp [edgeOf, hs, ht] at h
  all_goals exact ⟨_, by simp only [importRelationship, hs, ht]; rfl, hl rfl⟩

theorem importRelationship_some (h : edgeOf tx.stixToEntity rel = some k) :
    w.importRelationship ctx tx rel = do
      let (relId, db) ← w.upsertRelationship tx.db k.fst k.snd.fst k.snd.snd ctx.now
      let db ← storage <|
        db.putProvenance (w.claimOf ctx tx.claims relId (relationshipMetadata rel))
      return { tx with
        db            := db
        claims        := tx.claims + 1
        relationships := tx.relationships ++ [{
          relationshipId   := relId
          sourceObjectId   := k.fst
          targetObjectId   := k.snd.snd
          relationshipType := k.snd.fst }] } := by
  unfold edgeOf at h
  split at h
  case h_2         => cases h
  case h_1 hs ht =>
    cases h
    simp only [importRelationship, hs, ht]

theorem admits_edgeFor {t : Table CoreRelationship} {existing : Option CoreRelationship}
    {now : Timestamp} :
    t.Admits (some <| Relationship.naturalKey ·) (w.edgeFor existing k now) ↔ ¬w.Held t k := by
  have hk : (w.edgeFor existing k now).naturalKey = k := rfl
  have hi : (w.edgeFor existing k now).id = w.edgeId k := rfl
  simp only [Table.Admits, Relationship.key_eq, hk, hi, Option.isSome_some, true_implies, Held,
    ne_eq, Option.some.injEq]
  refine ⟨fun h hr => ?_, fun h r hr hne hn => h ⟨r, hr, hn, hne⟩⟩
  obtain ⟨r, hr, hn, hne⟩ := hr
  exact h r hr hne hn

-- Another relationship with these ends is not replaced, and nothing is imported.
theorem importRelationship_held (h : edgeOf tx.stixToEntity rel = some k)
    (hh : w.Held tx.db.relationships k) :
    w.importRelationship ctx tx rel = .error (.storage .conflict) := by
  have hp : tx.db.putRelationship
      (w.edgeFor (tx.db.relationships.get? (w.edgeId k)) k ctx.now) = .error .conflict :=
    dif_neg (mt admits_edgeFor.mp (not_not.mpr hh))
  have hu : w.upsertRelationship tx.db k.fst k.snd.fst k.snd.snd ctx.now =
      .error (.storage .conflict) :=
    Except.bind_eq_error.mpr <| .inl <| Except.mapError_eq_error.mpr ⟨_, hp, rfl⟩
  rw [importRelationship_some h, hu]
  rfl

theorem importRelationship_linked (h : edgeOf tx.stixToEntity rel = some k)
    (hh : ¬w.Held tx.db.relationships k)
    (he : (tx.db.rawEvidence.get? ctx.rawEvidenceId).isSome) :
    ∃ tx', w.importRelationship ctx tx rel = .ok tx' ∧ Linked w ctx tx tx' [k] := by
  obtain ⟨db₁, h₁⟩ := Store.exists_putRelationship (σ := tx.db)
    (r := w.edgeFor (tx.db.relationships.get? (w.edgeId k)) k ctx.now) (admits_edgeFor.mpr hh)
  have ht₁ := (Store.putRelationship_eq_ok.mp h₁).right
  obtain ⟨db₂, h₂, ht₂⟩ := putProvenance_eq w ctx db₁ tx.claims (w.edgeId k)
    (relationshipMetadata rel) (by simpa [ht₁] using he)
  have ht : db₂.toTables = { tx.db.toTables with
      relationships := w.addEdge ctx.now tx.db.relationships k
      provenance    := db₂.provenance } := by
    rw [ht₂, ht₁]
    rfl
  have hu : w.upsertRelationship tx.db k.fst k.snd.fst k.snd.snd ctx.now = .ok (w.edgeId k, db₁) :=
    Except.bind_eq_ok.mpr ⟨db₁, Except.mapError_eq_ok.mpr h₁, rfl⟩
  rw [importRelationship_some h]
  refine ⟨_, Except.bind_eq_ok.mpr ⟨_, hu, Except.bind_eq_ok.mpr
    ⟨db₂, Except.mapError_eq_ok.mpr h₂, rfl⟩⟩, ?_⟩
  have hc := congrArg Tables.entities ht
  have hi := congrArg Tables.entityIdentifiers ht
  simp only at hc hi
  exact {
    relationships := (congrArg Tables.relationships ht :)
    catalogue     := by simp [ImportTx.catalogue, hc, hi]
    rawEvidence   := (congrArg Tables.rawEvidence ht :) }

theorem Linked.stixToEntity {tx' : ImportTx} {keys : List EdgeKey} (h : Linked w ctx tx tx' keys) :
    tx'.stixToEntity = tx.stixToEntity :=
  congrArg Catalogue.stixToEntity h.catalogue

theorem Linked.trans {tx' tx'' : ImportTx} {keys keys' : List EdgeKey}
    (h : Linked w ctx tx tx' keys) (h' : Linked w ctx tx' tx'' keys') :
    Linked w ctx tx tx'' (keys ++ keys') where
  relationships := by rw [h'.relationships, h.relationships, List.foldl_append]
  catalogue     := h'.catalogue.trans h.catalogue
  rawEvidence   := h'.rawEvidence.trans h.rawEvidence

-- No step which succeeds does anything else.
theorem importRelationships_ok {rels : List MappedRelationship} {tx' : ImportTx}
    (he : (tx.db.rawEvidence.get? ctx.rawEvidenceId).isSome)
    (h : rels.foldlM (w.importRelationship ctx) tx = .ok tx') :
    Linked w ctx tx tx' (rels.filterMap (edgeOf tx.stixToEntity)) := by
  induction rels generalizing tx
  case nil           =>
    cases h
    exact ⟨rfl, rfl, rfl⟩
  case cons rel l hi =>
    obtain ⟨tx₁, h₁, h⟩ := Except.bind_eq_ok.mp h
    have hl : Linked w ctx tx tx₁ (edgeOf tx.stixToEntity rel).toList := by
      cases hk : edgeOf tx.stixToEntity rel
      case none   =>
        obtain ⟨tx₂, h₂, hl⟩ := importRelationship_none w ctx hk
        cases h₁.symm.trans h₂
        exact hl
      case some k =>
        by_cases hh : w.Held tx.db.relationships k
        case pos => cases h₁.symm.trans (importRelationship_held hk hh)
        case neg =>
          obtain ⟨tx₂, h₂, hl⟩ := importRelationship_linked hk hh he
          cases h₁.symm.trans h₂
          exact hl
    have hr := hi (hl.rawEvidence ▸ he) h
    rw [hl.stixToEntity] at hr
    convert hl.trans hr using 1
    cases hk : edgeOf tx.stixToEntity rel <;> simp [hk]

section Named

variable {t t' : Table CoreRelationship} {k' : EdgeKey} {keys : List EdgeKey}
variable {now now' : Timestamp}

theorem relationshipDerived_unique (hw : Function.Injective w.newV5) :
    ∀ x y i, w.RelationshipDerived x i → w.RelationshipDerived y i → x = y := by
  intro x y i hx hy
  have := hw (hx.symm.trans hy)
  simp only [V5Name.relationship.injEq] at this
  exact Prod.ext this.left (Prod.ext this.right.left this.right.right)

theorem held_iff_owner (h : t.Unique (some <| Relationship.naturalKey ·)) :
    w.Held t k ↔ ∃ r, t.owner Relationship.naturalKey k = some r ∧ r.id ≠ w.edgeId k := by
  simp only [Held, h.owner_eq_some, Table.mem_def, and_assoc]

-- Written again, only its times change.
theorem edgeFor_edgeFor {existing : Option CoreRelationship} {now' : Timestamp} :
    w.edgeFor (some (w.edgeFor existing k now)) k now' =
      { w.edgeFor existing k now with
        lastSeen  := now'
        updatedAt := now' } := by
  cases existing <;> simp [edgeFor, upsertedRelationship]

variable (hn : t.Named Relationship.naturalKey w.RelationshipDerived)

include hn

theorem get?_edgeId (hh : ¬w.Held t k) :
    t.get? (w.edgeId k) = t.owner Relationship.naturalKey k := by
  apply Option.ext
  intro r
  rw [Table.get?_eq_some, hn.owner_eq_some]
  constructor
  case mp  => exact fun h => ⟨h.left, hn.derived r h.left k h.right⟩
  case mpr => exact fun h => ⟨h.left, not_not.mp fun hi => hh ⟨r, h.left, h.right, hi⟩⟩

theorem fits_edgeFor (hh : ¬w.Held t k) {existing : Option CoreRelationship} :
    t.Fits Relationship.naturalKey w.RelationshipDerived (w.edgeFor existing k now) := by
  unfold Table.Fits
  rw [show (w.edgeFor existing k now).naturalKey = k from rfl]
  split
  case h_1 r ho =>
    obtain ⟨hr, hk⟩ := hn.owner_eq_some.mp ho
    exact (not_not.mp fun hi => hh ⟨r, hr, hk, Ne.symm hi⟩)
  case h_2      => rfl

theorem owner_addEdge (hh : ¬w.Held t k) :
    (w.addEdge now t k).owner Relationship.naturalKey k' =
      if k = k' then some (w.edgeFor (t.owner Relationship.naturalKey k) k now)
      else t.owner Relationship.naturalKey k' := by
  rw [addEdge, hn.owner_put (fits_edgeFor hn hh), get?_edgeId hn hh]
  rfl

theorem named_addEdge (hw : Function.Injective w.newV5) (hh : ¬w.Held t k) :
    (w.addEdge now t k).Named Relationship.naturalKey w.RelationshipDerived :=
  hn.put (fits_edgeFor hn hh) (relationshipDerived_unique hw)

theorem held_addEdge (hw : Function.Injective w.newV5) (hh : ¬w.Held t k) :
    w.Held (w.addEdge now t k) k' ↔ w.Held t k' := by
  rw [held_iff_owner (named_addEdge hn hw hh).unique, held_iff_owner hn.unique, owner_addEdge hn hh]
  split_ifs with hk
  case neg => rfl
  case pos =>
    subst hk
    have hi : (w.edgeFor (t.owner Relationship.naturalKey k) k now).id = w.edgeId k := rfl
    simp only [Option.some.injEq, exists_eq_left', hi, ne_eq, not_true_eq_false, false_iff]
    exact mt (held_iff_owner hn.unique).mpr hh

theorem foldl_addEdge (now : Timestamp) (hw : Function.Injective w.newV5)
    (hh : ∀ k ∈ keys, ¬w.Held t k) :
    (keys.foldl (w.addEdge now) t).Named Relationship.naturalKey w.RelationshipDerived ∧
    ∀ x, (keys.foldl (w.addEdge now) t).owner Relationship.naturalKey x =
      if x ∈ keys then some (w.edgeFor (t.owner Relationship.naturalKey x) x now)
      else t.owner Relationship.naturalKey x := by
  induction keys generalizing t
  case nil         => exact ⟨hn, fun x => by simp⟩
  case cons k l hi =>
    obtain ⟨hk, hl⟩ := List.forall_mem_cons.mp hh
    have hn₁ : (w.addEdge now t k).Named Relationship.naturalKey w.RelationshipDerived :=
      named_addEdge hn hw hk
    obtain ⟨hn', ho⟩ := hi hn₁ fun k' hm => by
      rw [held_addEdge hn hw hk]
      exact hl k' hm
    refine ⟨hn', fun x => ?_⟩
    rw [List.foldl_cons, ho, owner_addEdge hn hk]
    by_cases hx : k = x
    case neg => simp [hx, Ne.symm hx]
    case pos =>
      subst hx
      simp [edgeFor_edgeFor]
      intro _
      rfl

def linkedAt (t : Timestamp) (r : CoreRelationship) : CoreRelationship :=
  { r with lastSeen := t, updatedAt := t }

-- Written again, only the times of the relationships change.
theorem foldl_addEdge_again (now' : Timestamp) (hw : Function.Injective w.newV5)
    (hh : ∀ k ∈ keys, ¬w.Held t k) (ht : t' = keys.foldl (w.addEdge now) t) :
    (∀ k ∈ keys, ¬w.Held t' k) ∧ ∀ id,
      ((keys.foldl (w.addEdge now') t').get? id).map (linkedAt now') =
        (t'.get? id).map (linkedAt now') := by
  obtain ⟨hn₁, ho₁⟩ := foldl_addEdge hn now hw hh
  rw [← ht] at hn₁ ho₁
  have hh₁ (k) (hk : k ∈ keys) : ¬w.Held t' k := by
    rw [held_iff_owner hn₁.unique, ho₁, if_pos hk]
    rintro ⟨r, hr, hi⟩
    exact hi (Option.some.inj hr ▸ rfl)
  obtain ⟨hn₂, ho₂⟩ := foldl_addEdge hn₁ now' hw hh₁
  refine ⟨hh₁, fun id => hn₂.map_get? hn₁ (fun a b hab => ?_) (fun x => ?_) id⟩
  case refine_1 =>
    have hid : (linkedAt now' a).id = (linkedAt now' b).id := by rw [hab]
    exact hid
  case refine_2 =>
    rw [ho₂]
    split_ifs with hx
    case neg => rfl
    case pos =>
      rw [ho₁, if_pos hx, Option.map_some, Option.map_some, edgeFor_edgeFor]
      rfl

end Named

-- All of the relationships are written, or none of them if one of them is held by another one.
theorem importRelationships_eq (hw : Function.Injective w.newV5) (rels : List MappedRelationship)
    {tx : ImportTx} (hn : tx.db.relationships.Named Relationship.naturalKey w.RelationshipDerived)
    (he : (tx.db.rawEvidence.get? ctx.rawEvidenceId).isSome) :
    (∀ k ∈ rels.filterMap (edgeOf tx.stixToEntity), ¬w.Held tx.db.relationships k) ∧
      (∃ tx', rels.foldlM (w.importRelationship ctx) tx = .ok tx') ∨
    (∃ k ∈ rels.filterMap (edgeOf tx.stixToEntity), w.Held tx.db.relationships k) ∧
      rels.foldlM (w.importRelationship ctx) tx = .error (.storage .conflict) := by
  induction rels generalizing tx
  case nil           => exact .inl ⟨by simp, tx, rfl⟩
  case cons rel l hi =>
    rw [List.filterMap_cons]
    cases hk : edgeOf tx.stixToEntity rel
    case none   =>
      obtain ⟨tx₁, h₁, hl⟩ := importRelationship_none w ctx hk
      have hi := @hi tx₁ (hl.relationships ▸ hn) (hl.rawEvidence ▸ he)
      rw [hl.stixToEntity, hl.relationships] at hi
      rw [List.foldlM_cons, h₁]
      exact hi
    case some k =>
      by_cases hh : w.Held tx.db.relationships k
      case pos =>
        refine .inr ⟨⟨k, by simp, hh⟩, ?_⟩
        rw [List.foldlM_cons, importRelationship_held hk hh]
        rfl
      case neg =>
        obtain ⟨tx₁, h₁, hl⟩ := importRelationship_linked (w := w) hk hh he
        have hr : tx₁.db.relationships = w.addEdge ctx.now tx.db.relationships k := hl.relationships
        have hi := @hi tx₁ (hr ▸ named_addEdge hn hw hh) (hl.rawEvidence ▸ he)
        simp only [hl.stixToEntity, hr, held_addEdge hn hw hh] at hi
        rw [List.foldlM_cons, h₁]
        simp only [List.forall_mem_cons, List.exists_mem_cons_iff, hh, not_false_eq_true, true_and,
          false_or]
        exact hi

end Stix.StixWorker
