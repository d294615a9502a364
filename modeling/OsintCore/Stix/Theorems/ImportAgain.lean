import OsintCore.Stix.Theorems.ImportBundle

namespace Stix.StixWorker

variable {w : StixWorker} {ctx ctx' : ImportContext} {σ : Store} {bundle : StixBundle}

section Entity

variable {v : Option Entity} {l : List MappedEntity} {now now' : Timestamp}

def seenAt (t : Timestamp) (e : Entity) : Entity :=
  { e with lastSeen := t }

-- Written again, only the time of an entity changes.
theorem foldl_upserted_again (hk : ∀ a ∈ l, ∀ b ∈ l, a.naturalKey = b.naturalKey) {t : Timestamp} :
    (l.foldl (fun e m => some (w.upserted e m now'))
        (l.foldl (fun e m => some (w.upserted e m now)) v)).map (seenAt t) =
      (l.foldl (fun e m => some (w.upserted e m now)) v).map (seenAt t) := by
  cases l
  case nil => rfl
  case cons m l =>
    have hm (a) (ha : a ∈ l) : a.naturalKey = m.naturalKey :=
      hk a (List.mem_cons_of_mem _ ha) m List.mem_cons_self
    have hd (d : Option String) : (m :: l).foldl (fun d m => d.or m.description)
        ((m :: l).foldl (fun d m => d.or m.description) d) =
          (m :: l).foldl (fun d m => d.or m.description) d := by
      rw [List.foldl_or, List.foldl_or]
      cases d <;> cases (m :: l).findSome? (·.description) <;> rfl
    have ha (f : Fields Json) : (m :: l).foldl (fun f m => f.overlay m.attributes.fields)
        ((m :: l).foldl (fun f m => f.overlay m.attributes.fields) f) =
          (m :: l).foldl (fun f m => f.overlay m.attributes.fields) f := by
      refine Fields.ext_value fun key => ?_
      rw [value_foldl_overlay, value_foldl_overlay, ← Option.or_assoc, Option.or_self]
    have hc : max (v.elim stixDefaultConfidence (max ·.confidence stixDefaultConfidence))
        stixDefaultConfidence =
          v.elim stixDefaultConfidence (max ·.confidence stixDefaultConfidence) := by
      cases v <;> simp
    rw [foldl_upserted hm, foldl_upserted hm]
    simp only [Option.map_some, seenAt, Option.elim_some, Option.bind_eq_bind, Option.bind_some,
      Json.fields_ofFields, hc, hd, ha]

end Entity

section Again

variable {c c' : Catalogue} {l : List MappedEntity} {t : Timestamp}

theorem entityFor_key {m m' : MappedEntity} (hk : m.naturalKey = m'.naturalKey) :
    (w.entityFor ctx c m).id = (w.entityFor ctx c m').id := by
  obtain ⟨(ht : m.entityType = m'.entityType), (hn : m.normalizedName = m'.normalizedName)⟩ :=
    Prod.ext_iff.mp hk
  simp only [entityFor, upserted, hk, ht, hn]

-- An entity keeps its id.
theorem entityFor_again (ctx' : ImportContext) (hw : Function.Injective w.newV5) (h : c.WellNamed w)
    (he : c'.entities = (l.foldl (w.add ctx) c).entities) {m : MappedEntity} (hm : m ∈ l) :
    (w.entityFor ctx' c' m).id = (w.entityFor ctx c m).id := by
  have hf : m ∈ l.filter (·.naturalKey = m.naturalKey) := by simpa using hm
  have ho : c'.entities.owner Entity.naturalKey m.naturalKey =
      (l.filter (·.naturalKey = m.naturalKey)).foldl (fun e m => some (w.upserted e m ctx.now)) _ :=
    he ▸ owner_foldl hw h
  have hk (a) (ha : a ∈ l.filter (·.naturalKey = m.naturalKey)) : a.naturalKey = m.naturalKey :=
    key_of_mem_filter ha
  cases hl : l.filter (·.naturalKey = m.naturalKey)
  case nil => rw [hl] at hf; cases hf
  case cons a l =>
    rw [hl] at hk ho
    have ha := hk a List.mem_cons_self
    rw [foldl_upserted fun b hb => (hk b (List.mem_cons_of_mem _ hb)).trans ha.symm] at ho
    rw [entityFor_id ho, ← entityFor_key ha]
    simp only [entityFor, upserted, ha]

variable (hw : Function.Injective w.newV5) (h : c.WellNamed w) (h' : c'.WellNamed w)
  (he : c'.entities = (l.foldl (w.add ctx) c).entities)

include hw h h' he

theorem entities_again {id : EntityId} :
    ((l.foldl (w.add ctx') c').entities.get? id).map (seenAt t) =
      (c'.entities.get? id).map (seenAt t) := by
  refine (h'.foldl_add hw).entities.map_get? h'.entities (fun a b hab => ?_) (fun k => ?_) id
  case refine_1 =>
    have hid : (seenAt t a).id = (seenAt t b).id := by rw [hab]
    exact hid
  case refine_2 =>
    rw [owner_foldl hw h', he, owner_foldl hw h]
    refine foldl_upserted_again fun a ha b hb => ?_
    exact (key_of_mem_filter ha).trans (key_of_mem_filter hb).symm

omit he in
theorem identifiers_again
    (hi : c'.entityIdentifiers = (l.foldl (w.add ctx) c).entityIdentifiers) :
    (l.foldl (w.add ctx') c').entityIdentifiers = c'.entityIdentifiers := by
  refine (h'.foldl_add hw).identifiers.ext_owner h'.identifiers fun k => ?_
  rw [owner_identifier_foldl hw h', hi, owner_identifier_foldl hw h]
  cases ho : c.entityIdentifiers.owner EntityIdentifier.naturalKey k
  case some _ => rfl
  case none =>
    cases hf : l.findSome? fun m =>
      if (w.identifierFor ctx c m).naturalKey = k then some (w.identifierFor ctx c m) else none
    case some _ => rfl
    case none   =>
      rw [Option.none_or, Option.none_or, List.findSome?_eq_none_iff]
      intro m hm
      have hm := List.findSome?_eq_none_iff.mp hf m hm
      rw [identifierFor_naturalKey] at hm ⊢
      split_ifs at hm ⊢ with hk
      rfl

theorem stixToEntity_again (hs : c'.stixToEntity = c.stixToEntity) :
    (l.foldl (w.add ctx') c').stixToEntity = (l.foldl (w.add ctx) c).stixToEntity := by
  funext id
  rw [stixToEntity_foldl hw h', stixToEntity_foldl hw h, hs, ← List.foldl_or_swap,
    ← List.foldl_or_swap]
  refine List.foldl_ext _ _ _ fun d m hm => ?_
  have hi : (w.identifierFor ctx' c' m).entityId = (w.identifierFor ctx c m).entityId :=
    entityFor_again ctx' hw h he hm
  rw [hi]

end Again

-- Some rows have been seen again, nothing else has changed.
structure Unchanged (σ τ : Store) (t : Timestamp) : Prop where
  entities      : ∀ id, (τ.entities.get? id).map (seenAt t) = (σ.entities.get? id).map (seenAt t)
  identifiers   : τ.entityIdentifiers = σ.entityIdentifiers
  relationships : ∀ id, (τ.relationships.get? id).map (linkedAt t) =
    (σ.relationships.get? id).map (linkedAt t)

section Bundle

variable (hw : Function.Injective w.newV5) (hd : w.Derived σ)
  (he : (σ.rawEvidence.get? ctx.rawEvidenceId).isSome) {tx : ImportTx}
  (h : w.importBundle ctx σ bundle = .ok tx)

include hw hd he h

theorem importBundle_derived : w.Derived tx.db := by
  have ho := importBundle_outcome ctx hw hd he bundle
  rw [h] at ho
  cases ho
  case ok _ hh hc hrel _ =>
    have hn : (w.imported ctx σ bundle).WellNamed w := hd.wellNamed.foldl_add hw
    rw [← hc] at hn
    exact {
      entities      := hn.entities.derived
      identifiers   := hn.identifiers.derived
      relationships := hrel ▸ (foldl_addEdge hd.named ctx.now hw hh).left.derived }

theorem importBundle_again (ctx' : ImportContext) (hr : ctx'.rawEvidenceId = ctx.rawEvidenceId) :
    ∃ tx', w.importBundle ctx' tx.db bundle = .ok tx' ∧ Unchanged tx.db tx'.db ctx'.now := by
  have hd' := importBundle_derived hw hd he h
  have ho := importBundle_outcome ctx hw hd he bundle
  rw [h] at ho
  cases ho
  case ok hu hh hc hrel hev =>
    have hn := hd.wellNamed
    have hn' := hd'.wellNamed
    have hent : (catalogueOf tx.db).entities = (w.imported ctx σ bundle).entities :=
      (congrArg Catalogue.entities hc :)
    have hid : (catalogueOf tx.db).entityIdentifiers =
        (w.imported ctx σ bundle).entityIdentifiers :=
      (congrArg Catalogue.entityIdentifiers hc :)
    have hs : (w.imported ctx' tx.db bundle).stixToEntity =
        (w.imported ctx σ bundle).stixToEntity := stixToEntity_again hw hn hn' hent rfl
    have hk : w.edgesOf ctx' tx.db bundle = w.edgesOf ctx σ bundle := by
      rw [edgesOf, edgesOf, hs]
    have ho' := importBundle_outcome ctx' hw hd' (by rw [hr, hev]; exact he) bundle
    have ha := foldl_addEdge_again hd.named ctx'.now hw hh hrel
    rw [← hk] at ha
    generalize hx : w.importBundle ctx' tx.db bundle = x at ho'
    cases ho'
    case tooMany h => exact absurd hu (not_le.mpr h)
    case conflict hh' =>
      obtain ⟨k, hk, hh'⟩ := hh'
      exact absurd hh' (ha.left k hk)
    case ok tx' _ _ hc' hrel' _ =>
      refine ⟨tx', rfl, fun id => ?_, ?_, fun id => ?_⟩
      case refine_1 =>
        have h' : tx'.db.entities = (w.imported ctx' tx.db bundle).entities :=
          (congrArg Catalogue.entities hc' :)
        rw [h']
        exact entities_again hw hn hn' hent
      case refine_2 =>
        exact (congrArg Catalogue.entityIdentifiers hc').trans (identifiers_again hw hn hn' hid)
      case refine_3 =>
        rw [hrel']
        exact ha.right id

end Bundle

end Stix.StixWorker
