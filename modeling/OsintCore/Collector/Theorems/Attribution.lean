import OsintCore.Normalizer.Theorems.Concurrent
import OsintCore.Resources.Theorems.Links

open Resumption

namespace Normalizer

variable {w : Normalizer} {c : Call} {s t : NormalizerStore}

-- A call commits the one transaction which it has, or leaves everything as it is.
def Commits (w : Normalizer) (c : Call) (s t : NormalizerStore) : Prop :=
  t = s ∨ ∃ (evidence : CollectedEvidence) (documents : List Document),
    evidence.id = c.rawEvidenceId ∧ w.writeDocuments c evidence documents s = .ok t

theorem ensures_read {α : Type} {a : Access} {f : NormalizerStore → α}
    {Q : α → NormalizerStore → Prop} {E : NormalizerError → NormalizerStore → Prop}
    (hq : Q (f s) s) (he : E .unavailable s) : (c.read a f).Ensures s Q E := by
  unfold Call.read
  split
  case isTrue  => exact hq
  case isFalse => exact he

theorem ensures_transaction {f : NormalizerStore → Except StorageError NormalizerStore}
    {P : NormalizerStore → Prop} (hs : P s) (hf : ∀ t, f s = .ok t → P t) :
    (c.transaction f).Ensures s (fun _ => P) fun _ => P := by
  have ha : (attempt f : M (Except StorageError Unit)).Ensures s (fun _ => P) fun _ => P :=
    ensures_attempt.mpr ⟨hf, fun _ _ => hs⟩
  unfold Call.transaction
  split
  case h_1 => exact ha
  case h_2 => exact hs
  case h_3 => exact ensures_bind.mpr ha

theorem commits_normalizeRaw : (w.normalizeRaw c).Ensures s (fun _ => Commits w c s)
    fun _ => Commits w c s := by
  have hr : Commits w c s s := .inl rfl
  refine ensures_bind.mpr <| ensures_read ?_ hr
  split
  case h_1 => exact hr
  case h_2 =>
    refine ensures_bind.mpr <| ensures_read ?_ hr
    split
    case h_1 => exact hr
    case h_2 evidence he =>
      refine ensures_bind.mpr <| ensures_read ?_ hr
      split
      case h_1 => exact hr
      case h_2 =>
        split
        case h_1 => exact hr
        case h_2 documents _ =>
          refine ensures_bind.mpr <| (ensures_transaction hr fun t ht =>
            .inr ⟨evidence, _, Table.get?_key he, ht⟩).mono (fun r t ht => ?_) fun _ _ h => h
          split
          case h_1 => exact ht
          case h_2 =>
            refine ensures_bind.mpr <| ensures_read ?_ ht
            refine ensures_bind.mpr <| ensures_read ?_ ht
            split
            · exact ht
            · exact ht
          case h_3 => exact ht

-- What is new in the documents is in the collections of the evidence and in no others.
theorem Commits.mem_collectionObjects (h : Commits w c s t)
    (hc : (s.collectionsOf c.rawEvidenceId).length ≤ 100) {d : DocumentId}
    (hd : s.documents.get? d = none) (ho : ∀ id, (id, d) ∉ s.collectionObjects)
    (ht : (t.documents.get? d).isSome) {id : CollectionId} :
    (id, d) ∈ t.collectionObjects ↔ id ∈ s.collectionsOf c.rawEvidenceId := by
  obtain rfl | ⟨evidence, documents, he, hw⟩ := h
  case inl => simp [hd] at ht
  case inr =>
    have ⟨u, hu, hp⟩ := Except.bind_eq_ok.mp hw
    have hu := wrote_foldlM hu
    have ⟨_, _, hd', ho', _⟩ := NormalizerStore.of_putProvenance hp
    rw [hd', hu.documents, Table.isSome_get?_foldl_put, hd] at ht
    have ⟨document, hm, hk⟩ := ht.resolve_right (by simp)
    have ⟨row, hr, hf⟩ := List.mem_map.mp hm
    rw [ho', hu.linked, ← he,
      ← NormalizerStore.mem_listCollectionsByRawEvidence (limit_le (he ▸ hc))]
    exact ⟨fun h => (h.resolve_left (ho id)).left, fun h => .inr ⟨h, row, hr, hf ▸ hk⟩⟩

end Normalizer

namespace EvidenceStore

variable {s t : EvidenceStore} {evidence : CollectedEvidence} {ids : List CollectionId}

theorem foldl_linkEvidence {id : RawEvidenceId} {links : List (RawEvidenceId × CollectionId)}
    (hn : ids.Nodup) (hl : ∀ i ∈ ids, (id, i) ∉ links) :
    ids.foldl (linkEvidence id) links = links ++ ids.map (id, ·) := by
  induction ids generalizing links
  case nil => simp
  case cons i l hi =>
    have ⟨hi', hn⟩ := List.nodup_cons.mp hn
    have ha : linkEvidence id links i = links ++ [(id, i)] := if_neg (hl i List.mem_cons_self)
    have hl (j : CollectionId) (hj : j ∈ l) : (id, j) ∉ links ++ [(id, i)] := by
      simp only [List.mem_append, List.mem_singleton, Prod.mk.injEq, true_and, not_or]
      exact ⟨hl j (List.mem_cons_of_mem _ hj), fun h => hi' (h ▸ hj)⟩
    rw [List.foldl_cons, ha, hi hn hl]
    simp

-- New evidence is in the collections which it has been given.
theorem collectionsOf_insertRawEvidence (h : s.insertRawEvidence evidence ids = .ok t)
    (hn : ids.Nodup) : t.collectionsOf evidence.id = ids := by
  unfold insertRawEvidence at h
  split at h
  case isTrue  => cases h
  case isFalse he =>
    cases h
    have hl (i : CollectionId) : (evidence.id, i) ∉ s.rawEvidenceCollections :=
      fun hm => he (s.evidence_links _ hm)
    have hf : s.rawEvidenceCollections.filter (·.fst = evidence.id) = [] := by
      refine List.filter_eq_nil_iff.mpr ?_
      rintro ⟨e, i⟩ hm he
      refine hl i ?_
      have he : e = evidence.id := by simpa using he
      exact he ▸ hm
    simp [NormalizerStore.collectionsOf, foldl_linkEvidence hn fun i _ => hl i, hf,
      List.filter_map, Function.comp_def]

end EvidenceStore

namespace Resources

-- A request about collections. A run carries them out one after the other.
inductive CollectionRequest
  | create (c : Call) (body : CreateCollectionBody)
  | linkSources (c : Call) (id : CollectionId) (sourceIds : List SourceId)
  | linkConnectors (c : Call) (id : CollectionId) (connectorIds : List ConnectorId)
  | unlinkSource (c : Call) (id : CollectionId) (sourceId : SourceId)
  | unlinkConnector (c : Call) (id : CollectionId) (connectorId : ConnectorId)

namespace CollectionRequest

def program : CollectionRequest → M Unit
  | create c body                  => (fun _ => ()) <$> createCollection c body
  | linkSources c id sourceIds     => (fun _ => ()) <$> Resources.linkSources c id sourceIds
  | linkConnectors c id connectorIds => (fun _ => ()) <$> Resources.linkConnectors c id connectorIds
  | unlinkSource c id sourceId     => Resources.unlinkSource c id sourceId
  | unlinkConnector c id connectorId => Resources.unlinkConnector c id connectorId

def run (s : ResourceStore) (l : List CollectionRequest) : ResourceStore :=
  l.foldl (fun s r => r.program.exec s) s

theorem keeps_map {α : Type} {x : M α} {s : ResourceStore} (h : Keeps s x) :
    Keeps s ((fun _ => ()) <$> x) :=
  ensures_bind.mpr h

theorem keeps_program {s : ResourceStore} (h : s.WithinCap) (r : CollectionRequest) :
    Keeps s r.program := by
  cases r
  case create          => exact keeps_map (keeps_createCollection h)
  case linkSources     => exact keeps_map (keeps_linkSources h)
  case linkConnectors  => exact keeps_map (keeps_linkConnectors h)
  case unlinkSource    => exact keeps_unlinkSource h
  case unlinkConnector => exact keeps_unlinkConnector h

theorem withinCap_exec {s : ResourceStore} (h : s.WithinCap) (r : CollectionRequest) :
    (r.program.exec s).WithinCap :=
  ((keeps_program h r).mono (fun _ _ h => h) fun _ _ h => h.left).exec

theorem withinCap_run {s : ResourceStore} (h : s.WithinCap) (l : List CollectionRequest) :
    (run s l).WithinCap :=
  List.foldl_invariant h fun _ r _ hs => withinCap_exec hs r

section Links

-- A request about members which is allowed, and whose calls are all answered
def Served : CollectionRequest → Prop
  | create _ _             => False
  | linkSources c _ _      => c.role.allows .write ∧ ∀ a, c.reply a = .answered
  | linkConnectors c _ _   => c.role.allows .write ∧ ∀ a, c.reply a = .answered
  | unlinkSource c _ _     => c.role.allows .write ∧ ∀ a, c.reply a = .answered
  | unlinkConnector c _ _  => c.role.allows .write ∧ ∀ a, c.reply a = .answered

-- The collection may get all of the members.
def Accepts (known present : Uuid → Bool) (links : Finset (CollectionId × Uuid)) (max : Nat)
    (cid : CollectionId) (ids : List Uuid) : Prop :=
  known cid ∧ ids ≠ [] ∧ ids.length ≤ maxLinksPerRequest ∧ (∀ id ∈ ids, present id) ∧
    ∀ id ∈ ids, (cid, id) ∈ links ∨ ((links.filter (·.snd = id)).image Prod.fst).card < max

instance {known present : Uuid → Bool} {links : Finset (CollectionId × Uuid)} {max : Nat}
    {cid : CollectionId} {ids : List Uuid} : Decidable (Accepts known present links max cid ids) :=
  inferInstanceAs (Decidable (_ ∧ _ ∧ _ ∧ _ ∧ _))

-- A request links all it asks for, or nothing.
def link (known present : Uuid → Bool) (links : Finset (CollectionId × Uuid)) (max : Nat)
    (cid : CollectionId) (ids : List Uuid) : Finset (CollectionId × Uuid) :=
  if Accepts known present links max cid ids then links ∪ (ids.map (cid, ·)).toFinset else links

abbrev Links := Finset (CollectionId × SourceId) × Finset (CollectionId × ConnectorId)

-- What becomes of the links, where the tables are those of `s`.
def relink (s : ResourceStore) (links : Links) : CollectionRequest → Links
  | create _ _               => links
  | linkSources _ cid ids    => (link (s.getCollection · |>.isSome) (sourceExists · s) links.fst
      maxCollectionsPerSource cid ids, links.snd)
  | linkConnectors _ cid ids => (links.fst, link (s.getCollection · |>.isSome)
      (connectorExists · s) links.snd maxCollectionsPerConnector cid ids)
  | unlinkSource _ cid id    => (links.fst.erase (cid, id), links.snd)
  | unlinkConnector _ cid id => (links.fst, links.snd.erase (cid, id))

variable {s s' : ResourceStore} {r : CollectionRequest} {cid : CollectionId} {ids : List Uuid}

theorem relink_congr (ht : s'.tables = s.tables) : relink s' = relink s := by
  obtain ⟨hs, ht⟩ := Prod.mk.inj ht
  obtain ⟨hc, hk⟩ := Prod.mk.inj ht
  funext links r
  cases r <;> simp only [relink, ResourceStore.getCollection, sourceExists, connectorExists,
    ResourceStore.getSource, ResourceStore.getConnector, hs, hc, hk]

theorem accepts_sources : Accepts (s.getCollection · |>.isSome) (sourceExists · s)
    s.collectionSources maxCollectionsPerSource cid ids ↔ Linkable s cid sourceExists ids ids [] := by
  constructor
  case mp =>
    rintro ⟨hc, hn, hl, hp, hr⟩
    refine ⟨hc, hn, hl, hp, fun id hi => ?_, List.forall_mem_nil _⟩
    exact (hr id hi).imp_left ResourceStore.mem_collectionsOfSource.mpr
  case mpr =>
    intro h
    refine ⟨h.collection, h.nonempty, h.count, h.present, fun id hi => ?_⟩
    exact (h.room.sources id hi).imp_left ResourceStore.mem_collectionsOfSource.mp

theorem accepts_connectors : Accepts (s.getCollection · |>.isSome) (connectorExists · s)
    s.collectionConnectors maxCollectionsPerConnector cid ids ↔
      Linkable s cid connectorExists ids [] ids := by
  constructor
  case mp =>
    rintro ⟨hc, hn, hl, hp, hr⟩
    refine ⟨hc, hn, hl, hp, List.forall_mem_nil _, fun id hi => ?_⟩
    exact (hr id hi).imp_left ResourceStore.mem_collectionsOfConnector.mpr
  case mpr =>
    intro h
    refine ⟨h.collection, h.nonempty, h.count, h.present, fun id hi => ?_⟩
    exact (h.room.connectors id hi).imp_left ResourceStore.mem_collectionsOfConnector.mp

theorem eq_union_map {links links' : Finset (CollectionId × Uuid)}
    (h : ∀ link, link ∈ links' ↔ link ∈ links ∨ link.fst = cid ∧ link.snd ∈ ids) :
    links' = links ∪ (ids.map (cid, ·)).toFinset := by
  ext link
  simp only [h, Finset.mem_union, List.mem_toFinset, List.mem_map, Prod.ext_iff]
  grind

-- What the store has of the members: the tables stay, and the links become what they should.
def Relinks (s : ResourceStore) (r : CollectionRequest) (s' : ResourceStore) : Prop :=
  s'.tables = s.tables ∧ s'.links = relink s s.links r

theorem relinks_of_members (h : s'.members = s.members) (hr : relink s s.links r = s.links) :
    Relinks s r s' := by
  obtain ⟨ht, hl⟩ := Prod.mk.inj h
  exact ⟨ht, hl.trans hr.symm⟩

theorem ensures_served (h : s.WithinCap) (hs : r.Served) :
    r.program.Ensures s (fun _ => Relinks s r) fun _ => Relinks s r := by
  cases r
  case create => exact hs.elim
  case linkSources c cid ids =>
    refine ensures_bind.mpr <| (linkSources_answered hs.left hs.right h).mono (fun _ t ht => ?_)
      fun _ t ht => relinks_of_members ht.right ?_
    case refine_1 =>
      refine ⟨ht.right.tables, Prod.ext ?_ ?_⟩
      · exact (eq_union_map ht.right.sources).trans (if_pos (accepts_sources.mpr ht.left)).symm
      · exact Finset.ext fun link => (ht.right.connectors link).trans (by simp [relink]; rfl)
    case refine_2 => exact Prod.ext (if_neg fun ha => ht.left (accepts_sources.mp ha)) rfl
  case linkConnectors c cid ids =>
    refine ensures_bind.mpr <| (linkConnectors_answered hs.left hs.right h).mono (fun _ t ht => ?_)
      fun _ t ht => relinks_of_members ht.right ?_
    case refine_1 =>
      refine ⟨ht.right.tables, Prod.ext ?_ ?_⟩
      · exact Finset.ext fun link => (ht.right.sources link).trans (by simp [relink]; rfl)
      · exact (eq_union_map ht.right.connectors).trans (if_pos (accepts_connectors.mpr ht.left)).symm
    case refine_2 => exact Prod.ext rfl (if_neg fun ha => ht.left (accepts_connectors.mp ha))
  case unlinkSource c cid id =>
    exact (unlinkSource_answered hs.left hs.right).mono (fun _ _ => Prod.mk.inj)
      fun _ _ => Prod.mk.inj
  case unlinkConnector c cid id =>
    exact (unlinkConnector_answered hs.left hs.right).mono (fun _ _ => Prod.mk.inj)
      fun _ _ => Prod.mk.inj

theorem links_run (h : s.WithinCap) {l : List CollectionRequest} (hs : ∀ r ∈ l, r.Served) :
    (run s l).links = l.foldl (relink s) s.links := by
  induction l generalizing s
  case nil => rfl
  case cons r l hi =>
    obtain ⟨hr, hl⟩ := List.forall_mem_cons.mp hs
    obtain ⟨ht, he⟩ := (ensures_served h hr).exec
    have hi := hi (withinCap_exec h r) hl
    rw [relink_congr ht, he] at hi
    exact hi

end Links

end CollectionRequest

-- What a source or a connector belongs to is bounded, and reaches what is collected in full.
structure Attributed (s : ResourceStore) : Prop where
  cap        : s.WithinCap
  rejected   : ∀ (r : CollectionRequest) e s', r.program.run s = (.error e, s') → e.Rejected →
    s'.links = s.links
  sources    : ∀ (c : Call) cid ids, ids ≠ [] → ids.length ≤ maxLinksPerRequest →
    (∀ id ∈ ids, (cid, id) ∈ s.collectionSources) → c.role.allows .write →
    (∀ a, c.reply a = .answered) →
    ∃ d s', (linkSources c cid ids).run s = (.ok d, s') ∧ s'.links = s.links
  connectors : ∀ (c : Call) cid ids, ids ≠ [] → ids.length ≤ maxLinksPerRequest →
    (∀ id ∈ ids, (cid, id) ∈ s.collectionConnectors) → c.role.allows .write →
    (∀ a, c.reply a = .answered) →
    ∃ d s', (linkConnectors c cid ids).run s = (.ok d, s') ∧ s'.links = s.links
  collected  : ∀ sourceId connectorId, Collector.collectionIds s sourceId connectorId =
    (s.collectionsOfSource sourceId ∪ s.collectionsOfConnector connectorId).sort (· ≤ ·)
  documents  : ∀ sourceId connectorId (evidence : CollectedEvidence) (t t' u : EvidenceStore)
    (w : Normalizer) (c : Normalizer.Call) d,
    t.insertRawEvidence evidence (Collector.collectionIds s sourceId connectorId) = .ok t' →
    u.collectionsOf evidence.id = t'.collectionsOf evidence.id → c.rawEvidenceId = evidence.id →
    u.documents.get? d = none →
    (((w.normalizeRaw c).exec u.toNormalizerStore).documents.get? d).isSome →
    ∀ id, (id, d) ∈ ((w.normalizeRaw c).exec u.toNormalizerStore).collectionObjects ↔
      id ∈ s.collectionsOfSource sourceId ∪ s.collectionsOfConnector connectorId

theorem ResourceStore.WithinCap.attributed {s : ResourceStore} (h : s.WithinCap) :
    Attributed s where
  cap := h
  rejected r e s' hr he := by
    have hk := CollectionRequest.keeps_program h r
    unfold Keeps Ensures at hk
    rw [hr] at hk
    exact hk.right he
  sources c cid ids hn hl hm hr ha    := linkSources_members h hn hl hm hr ha
  connectors c cid ids hn hl hm hr ha := linkConnectors_members h hn hl hm hr ha
  collected _ _ := collectionIds_eq h
  documents sourceId connectorId evidence t t' u w c d ht hu hc hd hs id := by
    rw [collectionIds_eq h] at ht
    have hi := hu.trans <| EvidenceStore.collectionsOf_insertRawEvidence ht (Finset.sort_nodup _ _)
    rw [← hc] at hi
    have hl : (u.collectionsOf c.rawEvidenceId).length ≤ 100 := by
      rw [hi, Finset.length_sort]
      exact (Finset.card_union_le _ _).trans <| Nat.add_le_add (h.sources _) (h.connectors _)
    have ho (id : CollectionId) : (id, d) ∉ u.collectionObjects := fun hm => by
      have := u.object_links _ hm
      simp [hd] at this
    rw [(Normalizer.commits_normalizeRaw.exec).mem_collectionObjects hl hd ho hs, hi,
      Finset.mem_sort]

theorem run_attributed {start : ResourceStore} (h : start.WithinCap) (l : List CollectionRequest) :
    Attributed (CollectionRequest.run start l) :=
  (CollectionRequest.withinCap_run h l).attributed

namespace Sample

def operator : Call where
  role            := .operator
  subject         := "operator"
  ip              := none
  now             := 0
  newId           := 60
  eventId         := 61
  auditId         := 62
  auditedAt       := 0
  databaseMessage := ""
  reply _         := .answered

def blog : Source where
  id               := 1
  name             := "blog"
  sourceType       := .rss
  platform         := none
  baseUrl          := none
  description      := none
  language         := none
  country          := none
  enabled          := true
  collectionPolicy := .object []
  createdAt        := 0
  updatedAt        := 0
  lastSeen         := none

def press (id : CollectionId) : Collection where
  id          := id
  workspaceId := none
  name        := "press"
  description := none
  status      := collectionDefaultStatus
  priority    := 0
  createdAt   := 0
  updatedAt   := 0

-- The source is at the cap: it belongs to all collections but the last two.
def fullSource : ResourceStore where
  sources              := ⟨[blog], by decide⟩
  connectors           := ⟨[Sample.rss .null], by decide⟩
  collections          := ⟨(List.range 52).map press, by decide +kernel⟩
  collectionSources    := (Finset.range 50).image (·, 1)
  collectionConnectors := {(0, 1)}
  source_links         := by decide +kernel
  connector_links      := by decide +kernel

-- A member is linked once more, a full source is refused until it has been taken out somewhere else.
def linkings : List CollectionRequest :=
  [.linkSources operator 49 [1, 1], .linkSources operator 50 [1], .unlinkSource operator 49 1,
   .linkSources operator 51 [1, 1], .linkConnectors operator 50 [1],
   .unlinkConnector operator 0 1]

end Sample

open Resources.Sample

theorem run_attributed_fullSource : Attributed (CollectionRequest.run fullSource linkings) ∧
    (CollectionRequest.run fullSource linkings).links =
      (insert (51, 1) (fullSource.collectionSources.erase (49, 1)), {(50, 1)}) := by
  have hc : fullSource.WithinCap := by
    constructor
    case sources =>
      refine fun id => Finset.card_image_le.trans <| (Finset.card_filter_le _ _).trans ?_
      exact Finset.card_image_le.trans (Finset.card_range 50).le
    case connectors =>
      refine fun id => Finset.card_image_le.trans <| (Finset.card_filter_le _ _).trans ?_
      decide
  refine ⟨run_attributed hc _, (CollectionRequest.links_run hc ?_).trans (by decide +kernel)⟩
  have hs : operator.role.allows .write ∧ ∀ a, operator.reply a = .answered :=
    ⟨by decide, fun _ => rfl⟩
  simpa [linkings, CollectionRequest.Served] using hs

end Resources
