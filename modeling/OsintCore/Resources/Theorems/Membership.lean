import OsintCore.Collector.Evidence
import OsintCore.Control.Except
import OsintCore.Control.Fold
import OsintCore.Resources.Theorems.Creation

namespace Resources

open Resumption

namespace ResourceStore

variable {s s' : ResourceStore} {id : Uuid} {cid : CollectionId} {ids : List Uuid}

-- All collections which a source or a connector belongs to are in one page.
structure WithinCap (s : ResourceStore) : Prop where
  sources    : ∀ id, (s.collectionsOfSource id).card ≤ maxCollectionsPerSource
  connectors : ∀ id, (s.collectionsOfConnector id).card ≤ maxCollectionsPerConnector

def links (s : ResourceStore) :
    Finset (CollectionId × SourceId) × Finset (CollectionId × ConnectorId) :=
  (s.collectionSources, s.collectionConnectors)

def tables (s : ResourceStore) : Table Source × Table Connector × Table Collection :=
  (s.sources, s.connectors, s.collections)

def members (s : ResourceStore) :=
  (s.tables, s.links)

theorem WithinCap.congr (h : s.WithinCap) (hl : s'.links = s.links) : s'.WithinCap := by
  have ⟨hs, hc⟩ := Prod.mk.inj hl
  exact ⟨fun id => by simpa [collectionsOfSource, hs] using h.sources id,
    fun id => by simpa [collectionsOfConnector, hc] using h.connectors id⟩

@[simp]
theorem mem_collectionsOfSource : cid ∈ s.collectionsOfSource id ↔ (cid, id) ∈ s.collectionSources := by
  simp [collectionsOfSource]

@[simp]
theorem mem_collectionsOfConnector :
    cid ∈ s.collectionsOfConnector id ↔ (cid, id) ∈ s.collectionConnectors := by
  simp [collectionsOfConnector]

end ResourceStore

theorem linkedIds_eq {links : Finset Uuid} {limit : Nat} (h : links.card ≤ Store.clampLimit limit) :
    linkedIds links limit = links.sort (· ≤ ·) :=
  List.take_of_length_le (by simpa using h)

theorem card_le_linkPage {n : Nat} (h : n ≤ 50) : n ≤ Store.clampLimit linkPage :=
  h.trans (by decide)

namespace ResourceStore

variable {s s' : ResourceStore} {id : Uuid} {cid : CollectionId} {ids : List Uuid}

section Listing

variable (h : s.WithinCap)
include h

theorem WithinCap.listCollectionsBySource :
    s.listCollectionsBySource id linkPage = (s.collectionsOfSource id).sort (· ≤ ·) :=
  linkedIds_eq <| card_le_linkPage (h.sources id)

theorem WithinCap.listCollectionsByConnector :
    s.listCollectionsByConnector id linkPage = (s.collectionsOfConnector id).sort (· ≤ ·) :=
  linkedIds_eq <| card_le_linkPage (h.connectors id)

end Listing

section Link

theorem of_linkCollectionSource (h : s.linkCollectionSource cid id = .ok s') :
    s'.collectionSources = insert (cid, id) s.collectionSources ∧
      s'.collectionConnectors = s.collectionConnectors ∧ s'.tables = s.tables := by
  simp only [linkCollectionSource] at h
  split at h
  case isTrue  => cases h; exact ⟨rfl, rfl, rfl⟩
  case isFalse => cases h

theorem of_linkCollectionConnector (h : s.linkCollectionConnector cid id = .ok s') :
    s'.collectionConnectors = insert (cid, id) s.collectionConnectors ∧
      s'.collectionSources = s.collectionSources ∧ s'.tables = s.tables := by
  simp only [linkCollectionConnector] at h
  split at h
  case isTrue  => cases h; exact ⟨rfl, rfl, rfl⟩
  case isFalse => cases h

theorem mem_foldl_insert {links : Finset (CollectionId × Uuid)} {link : CollectionId × Uuid} :
    link ∈ ids.foldl (fun links id => insert (cid, id) links) links ↔
      link ∈ links ∨ link.fst = cid ∧ link.snd ∈ ids := by
  induction ids generalizing links
  case nil => simp
  case cons i l hi =>
    rw [List.foldl_cons, hi, Finset.mem_insert, List.mem_cons, Prod.ext_iff]
    grind

-- The transaction adds its links and no others.
structure Linked (cid : CollectionId) (sourceIds connectorIds : List Uuid)
    (s s' : ResourceStore) : Prop where
  sources     : ∀ link, link ∈ s'.collectionSources ↔
    link ∈ s.collectionSources ∨ link.fst = cid ∧ link.snd ∈ sourceIds
  connectors  : ∀ link, link ∈ s'.collectionConnectors ↔
    link ∈ s.collectionConnectors ∨ link.fst = cid ∧ link.snd ∈ connectorIds
  tables      : s'.tables = s.tables

theorem Linked.collections {sourceIds connectorIds : List Uuid}
    (h : Linked cid sourceIds connectorIds s s') : s'.collections = s.collections :=
  congrArg (·.snd.snd) h.tables

theorem linked_linkCollectionMembers {sourceIds connectorIds : List Uuid}
    (h : s.linkCollectionMembers cid sourceIds connectorIds = .ok s') :
    Linked cid sourceIds connectorIds s s' := by
  simp only [linkCollectionMembers, Except.bind_eq_ok] at h
  have ⟨t, ht, h⟩ := h
  have hs := List.foldlM_view (v := collectionSources) (g := fun l id => insert (cid, id) l) ht
    fun _ _ _ _ h => (of_linkCollectionSource h).left
  have hc := List.foldlM_view (v := collectionConnectors) (g := fun l id => insert (cid, id) l) h
    fun _ _ _ _ h => (of_linkCollectionConnector h).left
  have hs' : s'.collectionSources = t.collectionSources :=
    List.foldlM_constant h fun _ _ _ _ h => (of_linkCollectionConnector h).right.left
  have hc' : t.collectionConnectors = s.collectionConnectors :=
    List.foldlM_constant ht fun _ _ _ _ h => (of_linkCollectionSource h).right.left
  have ht' : t.tables = s.tables :=
    List.foldlM_constant ht fun _ _ _ _ h => (of_linkCollectionSource h).right.right
  have hk : s'.tables = t.tables :=
    List.foldlM_constant h fun _ _ _ _ h => (of_linkCollectionConnector h).right.right
  exact {
    sources link    := by rw [hs', hs, mem_foldl_insert]
    connectors link := by rw [hc, hc', mem_foldl_insert]
    tables          := hk.trans ht' }

theorem exists_linkCollectionMembers {sourceIds connectorIds : List Uuid}
    (hc : (s.getCollection cid).isSome) (hs : ∀ id ∈ sourceIds, (s.getSource id).isSome)
    (hn : ∀ id ∈ connectorIds, (s.getConnector id).isSome) :
    ∃ s', s.linkCollectionMembers cid sourceIds connectorIds = .ok s' := by
  have ⟨t, ht, hct, hnt, _⟩ := List.foldlM_progress (f := fun s id => linkCollectionSource s cid id)
    (I := fun l t => t.collections = s.collections ∧ t.connectors = s.connectors ∧
      ∀ id ∈ l, (t.sources.get? id).isSome) (b := s) ⟨rfl, rfl, hs⟩ fun id l t ⟨hc', hn', hs'⟩ => by
    have h : (t.collections.get? cid).isSome ∧ (t.sources.get? id).isSome :=
      ⟨hc' ▸ hc, hs' id List.mem_cons_self⟩
    exact ⟨_, dif_pos h, hc', hn', fun i hi => hs' i (List.mem_cons_of_mem _ hi)⟩
  have ⟨u, hu, _⟩ := List.foldlM_progress (f := fun s id => linkCollectionConnector s cid id)
    (I := fun l t => t.collections = s.collections ∧ ∀ id ∈ l, (t.connectors.get? id).isSome)
    (b := t) ⟨hct, fun id hi => hnt ▸ hn id hi⟩ fun id l t ⟨hc', hn'⟩ => by
    have h : (t.collections.get? cid).isSome ∧ (t.connectors.get? id).isSome :=
      ⟨hc' ▸ hc, hn' id List.mem_cons_self⟩
    exact ⟨_, dif_pos h, hc', fun i hi => hn' i (List.mem_cons_of_mem _ hi)⟩
  exact ⟨u, Except.bind_eq_ok.mpr ⟨t, ht, hu⟩⟩

-- The collection has room for the identifier, or holds it already.
def Fits (list : Uuid → Finset CollectionId) (cid : CollectionId) (max : Nat) (id : Uuid) : Prop :=
  cid ∈ list id ∨ (list id).card < max

theorem card_insert_of_fits {links links' : Finset CollectionId} {p : Prop} {max : Nat}
    (h : links.card ≤ max) (hm : ∀ c, c ∈ links' ↔ c ∈ links ∨ c = cid ∧ p)
    (hf : p → cid ∈ links ∨ links.card < max) : links'.card ≤ max := by
  by_cases hp : p ∧ cid ∉ links
  case pos =>
    have he : links' = insert cid links := by ext c; simp [hm, hp.left, or_comm]
    have hl := (hf hp.left).resolve_left hp.right
    rw [he, Finset.card_insert_of_notMem hp.right]
    exact hl
  case neg =>
    have he : links' = links := by ext c; simp only [hm]; grind
    exact he ▸ h

theorem Linked.withinCap {sourceIds connectorIds : List Uuid}
    (hl : Linked cid sourceIds connectorIds s s') (h : s.WithinCap)
    (hs : ∀ id ∈ sourceIds, Fits s.collectionsOfSource cid maxCollectionsPerSource id)
    (hc : ∀ id ∈ connectorIds, Fits s.collectionsOfConnector cid maxCollectionsPerConnector id) :
    s'.WithinCap where
  sources id    := card_insert_of_fits (h.sources id) (p := id ∈ sourceIds)
    (fun c => by simp [hl.sources]) (hs id)
  connectors id := card_insert_of_fits (h.connectors id) (p := id ∈ connectorIds)
    (fun c => by simp [hl.connectors]) (hc id)

theorem WithinCap.unlinkCollectionSource (h : s.WithinCap) :
    (s.unlinkCollectionSource cid id).WithinCap where
  sources i    := (h.sources i).trans' <| Finset.card_le_card fun c hc => by
    simp only [mem_collectionsOfSource, ResourceStore.unlinkCollectionSource] at hc ⊢
    exact Finset.mem_of_mem_erase hc
  connectors i := h.connectors i

theorem WithinCap.unlinkCollectionConnector (h : s.WithinCap) :
    (s.unlinkCollectionConnector cid id).WithinCap where
  sources i    := h.sources i
  connectors i := (h.connectors i).trans' <| Finset.card_le_card fun c hc => by
    simp only [mem_collectionsOfConnector, ResourceStore.unlinkCollectionConnector] at hc ⊢
    exact Finset.mem_of_mem_erase hc

end Link

end ResourceStore

section Calls

variable {c : Call} {s : ResourceStore} {E : ApiError → ResourceStore → Prop}

-- A call of the store was not answered, which the request could not help.
structure Unanswered (c : Call) (s : ResourceStore) (e : ApiError) (s' : ResourceStore) : Prop where
  unchanged   : s' = s
  unavailable : e = .unavailable
  access      : ∃ a, c.reply a ≠ .answered

theorem not_rejected_unavailable : ¬ApiError.unavailable.Rejected := by
  decide

theorem ensures_callRead {α : Type} {a : Access} {f : ResourceStore → α}
    {Q : α → ResourceStore → Prop} (hq : Q (f s) s) (he : ∀ e s', Unanswered c s e s' → E e s') :
    (c.read a f).Ensures s Q E := by
  unfold Call.read
  split
  case isTrue    => exact hq
  case isFalse h => exact he _ _ ⟨rfl, rfl, a, h⟩

theorem ensures_callWrite {f : ResourceStore → Except StorageError ResourceStore}
    {Q : Except StorageError Unit → ResourceStore → Prop}
    (ho : ∀ s', f s = .ok s' → Q (.ok ()) s' ∧ (c.reply .write ≠ .answered → E .unavailable s'))
    (hr : ∀ e, f s = .error e → Q (.error e) s)
    (he : c.reply .write ≠ .answered → E .unavailable s) : (c.write f).Ensures s Q E := by
  unfold Call.write
  cases hw : c.reply .write
  case answered => exact ensures_attempt.mpr ⟨fun s' h => (ho s' h).left, hr⟩
  case failed   => exact he (by simp [hw])
  case lost     =>
    have hn : c.reply .write ≠ .answered := by simp [hw]
    change E .unavailable ((f s).toOption.getD s)
    cases hf : f s
    case error e => exact he hn
    case ok s'   => exact (ho s' hf).right hn

theorem ensures_audit {entry : AuditEntry} {Q : Unit → ResourceStore → Prop} (h : Q () s)
    (ha : Q () (s.append entry)) : (c.audit entry).Ensures s Q E := by
  change Q () ((if _ then id else _) s)
  split
  case isTrue  => exact h
  case isFalse => exact ha

end Calls

section Capacity

variable {c : Call} {s : ResourceStore} {access : Uuid → Access} {cid : CollectionId}
variable {list : ResourceStore → Uuid → Nat → List CollectionId} {max : Nat} {ids : List Uuid}

def Listed (list : ResourceStore → Uuid → Nat → List CollectionId) (s : ResourceStore)
    (cid : CollectionId) (max : Nat) (id : Uuid) : Prop :=
  cid ∈ list s id linkPage ∨ (list s id linkPage).length < max

theorem ensures_overCapacity : (overCapacity c access list max cid ids).Ensures s
    (fun found s' => s' = s ∧ (found = [] ↔ ∀ id ∈ ids, Listed list s cid max id))
    (Unanswered c s) := by
  -- `I` : what has been seen and what is left are the identifiers, and the list tells the full ones.
  let I (l : List Uuid) (found : Finset Uuid × List Uuid) (s' : ResourceStore) : Prop :=
    s' = s ∧ (∀ id, id ∈ ids ↔ id ∈ found.fst ∨ id ∈ l) ∧
      (found.snd = [] ↔ ∀ id ∈ found.fst, Listed list s cid max id)
  have hl : (ids.foldlM (overCapacity.visit c access list max cid) (∅, [])).Ensures s (I [])
      (Unanswered c s) := by
    refine ensures_foldlM (I := I) ⟨rfl, by simp, by simp⟩ fun id l found s' ⟨hs, hi, hf⟩ => ?_
    subst hs
    unfold overCapacity.visit
    split
    case isTrue hm =>
      refine ⟨rfl, fun i => (hi i).trans ?_, hf⟩
      rw [List.mem_cons]
      grind
    case isFalse =>
      have hi' (i : Uuid) : i ∈ ids ↔ i ∈ insert id found.fst ∨ i ∈ l := (hi i).trans <| by
        rw [List.mem_cons, Finset.mem_insert]
        grind
      refine ensures_bind.mpr <| ensures_callRead ?_ fun _ _ h => h
      split
      case isTrue h =>
        refine ⟨rfl, hi', ?_⟩
        simp only [List.append_eq_nil_iff, List.cons_ne_nil, and_false, Finset.mem_insert,
          forall_eq_or_imp, false_iff, not_and]
        exact fun hn => absurd hn (by simpa [Listed] using h)
      case isFalse h =>
        refine ⟨rfl, hi', hf.trans ?_⟩
        simp only [Finset.mem_insert, forall_eq_or_imp]
        exact (and_iff_right (by simp only [Listed]; grind)).symm
  refine ensures_bind.mpr <| hl.mono (fun found s' ⟨hs, hi, hf⟩ => ?_) fun _ _ h => h
  exact ⟨hs, hf.trans <| by simp [hi]⟩

theorem ResourceStore.WithinCap.listed_sources (h : s.WithinCap) {id : Uuid} :
    Listed (·.listCollectionsBySource) s cid maxCollectionsPerSource id ↔
      ResourceStore.Fits s.collectionsOfSource cid maxCollectionsPerSource id := by
  simp [Listed, h.listCollectionsBySource, ResourceStore.Fits]

theorem ResourceStore.WithinCap.listed_connectors (h : s.WithinCap) {id : Uuid} :
    Listed (·.listCollectionsByConnector) s cid maxCollectionsPerConnector id ↔
      ResourceStore.Fits s.collectionsOfConnector cid maxCollectionsPerConnector id := by
  simp [Listed, h.listCollectionsByConnector, ResourceStore.Fits]

-- The collection can be linked to all of them.
structure Room (s : ResourceStore) (cid : CollectionId) (sourceIds connectorIds : List Uuid) :
    Prop where
  sources    : ∀ id ∈ sourceIds,
    ResourceStore.Fits s.collectionsOfSource cid maxCollectionsPerSource id
  connectors : ∀ id ∈ connectorIds,
    ResourceStore.Fits s.collectionsOfConnector cid maxCollectionsPerConnector id

theorem ensures_checkMembershipCapacity (h : s.WithinCap) {sourceIds connectorIds : List Uuid}
    {nothingWritten : String} :
    (checkMembershipCapacity c cid sourceIds connectorIds nothingWritten).Ensures s
      (fun _ s' => s' = s ∧ Room s cid sourceIds connectorIds)
      (fun e s' => Unanswered c s e s' ∨ s' = s ∧ ¬Room s cid sourceIds connectorIds) := by
  refine ensures_bind.mpr <| ensures_overCapacity.mono (fun a t ⟨ht, ha⟩ => ?_) fun _ _ => .inl
  subst ht
  refine ensures_bind.mpr <| ensures_overCapacity.mono (fun b t ⟨ht, hb⟩ => ?_) fun _ _ => .inl
  subst ht
  simp only [h.listed_sources] at ha
  simp only [h.listed_connectors] at hb
  split
  case isTrue he  => exact ⟨rfl, ha.mp he.left, hb.mp he.right⟩
  case isFalse he =>
    exact .inr ⟨rfl, fun hr => he ⟨ha.mpr hr.sources, hb.mpr hr.connectors⟩⟩

theorem ensures_missing {present : Uuid → ResourceStore → Bool} :
    (missing c access present ids).Ensures s
      (fun found s' => s' = s ∧ (found = [] ↔ ∀ id ∈ ids, present id s)) (Unanswered c s) := by
  -- `I` : what the list tells is what is missing among those that have been looked up.
  let I (l : List Uuid) (found : List Uuid) (s' : ResourceStore) : Prop :=
    s' = s ∧ (found = [] ∧ (∀ id ∈ l, present id s) ↔ ∀ id ∈ ids, present id s)
  have hl : (missing c access present ids).Ensures s (I []) (Unanswered c s) := by
    refine ensures_foldlM (I := I) ⟨rfl, by simp⟩ fun id l found s' ⟨hs, hi⟩ => ?_
    subst hs
    refine ensures_bind.mpr <| ensures_callRead ?_ fun _ _ h => h
    cases hp : present id s'
    case true  => exact ⟨rfl, .trans (by simp [hp]) hi⟩
    case false => exact ⟨rfl, .trans (by simp [hp]) hi⟩
  exact hl.mono (fun found s' ⟨hs, hi⟩ => ⟨hs, by simpa using hi⟩) fun _ _ h => h

theorem ensures_load {a : Access} : (load c a cid).Ensures s
    (fun _ s' => s' = s ∧ (s.getCollection cid).isSome)
    (fun e s' => Unanswered c s e s' ∨ s' = s ∧ s.getCollection cid = none) := by
  refine ensures_bind.mpr <| ensures_callRead ?_ fun _ _ => .inl
  cases h : s.getCollection cid
  case none   => exact .inr ⟨rfl, rfl⟩
  case some x => exact ⟨rfl, rfl⟩

theorem ensures_detail {collection : Collection} {objectIds : M (List ObjectId)}
    (h : objectIds.Ensures s (fun _ s' => s' = s) (Unanswered c s)) :
    (detail c collection objectIds).Ensures s (fun _ s' => s' = s) (Unanswered c s) := by
  refine ensures_bind.mpr <| ensures_callRead ?_ fun _ _ h => h
  refine ensures_bind.mpr <| ensures_callRead ?_ fun _ _ h => h
  exact ensures_bind.mpr <| h.mono (fun _ _ h => h) fun _ _ h => h

end Capacity

section Evidence

variable {s : ResourceStore}

theorem mem_vecDedup {l : List Uuid} {id : Uuid} : id ∈ vecDedup l ↔ id ∈ l := by
  fun_induction vecDedup l
  case case1 => rfl
  case case2 => rfl
  case case3 a l hi => simp [hi]
  case case4 a b l hn hi => simp [hi]

theorem sorted_vecDedup {l : List Uuid} (h : l.Pairwise (· ≤ ·)) :
    (vecDedup l).Pairwise (· < ·) := by
  fun_induction vecDedup l
  case case1 => exact .nil
  case case2 => exact .cons (by simp) .nil
  case case3 a l hi => exact hi h.of_cons
  case case4 a b l hn hi =>
    refine .cons (fun i hm => ?_) (hi h.of_cons)
    have ha := List.rel_of_pairwise_cons h (mem_vecDedup.mp hm)
    obtain hm | hm := List.mem_cons.mp (mem_vecDedup.mp hm)
    · exact hm ▸ lt_of_le_of_ne (List.rel_of_pairwise_cons h List.mem_cons_self) hn
    · exact lt_of_lt_of_le (lt_of_le_of_ne (List.rel_of_pairwise_cons h List.mem_cons_self) hn)
        (List.rel_of_pairwise_cons h.of_cons hm)

theorem vecDedup_eq_sort {l : List Uuid} {t : Finset Uuid} (h : l.Pairwise (· ≤ ·))
    (hm : ∀ id, id ∈ l ↔ id ∈ t) : vecDedup l = t.sort (· ≤ ·) := by
  have hs := sorted_vecDedup h
  have hn : (vecDedup l).Nodup := hs.imp fun h => ne_of_lt h
  refine List.Perm.eq_of_pairwise (fun _ _ _ _ h h' => le_antisymm h h')
    (hs.imp fun h => le_of_lt h) (Finset.pairwise_sort t _) ?_
  refine (List.perm_ext_iff_of_nodup hn (Finset.sort_nodup t _)).mpr fun id => ?_
  rw [mem_vecDedup, hm, Finset.mem_sort]

-- None of the collections is left out.
theorem collectionIds_eq (h : s.WithinCap) {sourceId : SourceId} {connectorId : ConnectorId} :
    Collector.collectionIds s sourceId connectorId =
      (s.collectionsOfSource sourceId ∪ s.collectionsOfConnector connectorId).sort (· ≤ ·) := by
  refine vecDedup_eq_sort (List.pairwise_mergeSort' _ _) fun id => ?_
  have hs := @ResourceStore.WithinCap.listCollectionsBySource s sourceId h
  have hc := @ResourceStore.WithinCap.listCollectionsByConnector s connectorId h
  simp only [linkPage] at hs hc
  simp [hs, hc]

end Evidence

end Resources
