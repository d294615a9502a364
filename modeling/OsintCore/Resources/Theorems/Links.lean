import OsintCore.Resources.Theorems.Membership

namespace Resources

open Resumption

section Requests

open ResourceStore (Linked)

variable {c : Call} {s s' : ResourceStore} {cid : CollectionId}
variable {ids sourceIds connectorIds : List Uuid}

-- A request to link is fine.
structure Linkable (s : ResourceStore) (cid : CollectionId)
    (present : Uuid → ResourceStore → Bool) (ids sourceIds connectorIds : List Uuid) : Prop where
  collection : (s.getCollection cid).isSome
  nonempty   : ids ≠ []
  count      : ids.length ≤ maxLinksPerRequest
  present    : ∀ id ∈ ids, present id s
  room       : Room s cid sourceIds connectorIds

theorem ensures_detailOf : (detailOf c cid).Ensures s (fun _ s' => s' = s)
    (fun e s' => Unanswered c s e s' ∨ s' = s ∧ s.getCollection cid = none) := by
  refine ensures_bind.mpr <| ensures_load.mono (fun collection t ⟨ht, _⟩ => ?_) fun _ _ h => h
  subst ht
  exact ensures_detail (ensures_callRead rfl fun _ _ h => h) |>.mono (fun _ _ h => h)
    fun _ _ => .inl

-- Once the checks have passed, only a call which is not answered gets in the way.
theorem ensures_linkInner (h : s.WithinCap) {field resource : String} {access : Uuid → Access}
    {present : Uuid → ResourceStore → Bool}
    (hl : Linkable s cid present ids sourceIds connectorIds →
      ∃ s', s.linkCollectionMembers cid sourceIds connectorIds = .ok s') :
    (linkInner c cid field resource access present ids sourceIds connectorIds).Ensures s
      (fun _ s' => Linkable s cid present ids sourceIds connectorIds ∧
        s.linkCollectionMembers cid sourceIds connectorIds = .ok s')
      (fun e s' => Unanswered c s e s' ∨
        s' = s ∧ ¬Linkable s cid present ids sourceIds connectorIds ∨
        e = .unavailable ∧ (∃ a, c.reply a ≠ .answered) ∧ Room s cid sourceIds connectorIds ∧
          s.linkCollectionMembers cid sourceIds connectorIds = .ok s') := by
  refine ensures_bind.mpr <| ensures_load.mono (fun _ t ⟨ht, hc⟩ => ?_) fun e t he => ?_
  case refine_2 =>
    obtain he | ⟨ht, he⟩ := he
    · exact .inl he
    · exact .inr <| .inl ⟨ht, fun hl => by simpa [he] using hl.collection⟩
  subst ht
  rw [ensures_ite]
  refine ⟨fun hn => .inr <| .inl ⟨rfl, fun hl => hl.nonempty hn⟩, fun hn => ?_⟩
  refine ensures_bind.mpr <| ensures_ofExcept.mpr ⟨fun _ hk => ?_, fun e hk => ?_⟩
  case refine_2 =>
    refine .inr <| .inl ⟨rfl, fun hl => ?_⟩
    rw [checkLinkCount, if_neg (not_lt.mpr hl.count)] at hk
    cases hk
  have hcount : ids.length ≤ maxLinksPerRequest := by
    unfold checkLinkCount at hk
    split at hk
    case isTrue    => cases hk
    case isFalse h => exact not_lt.mp h
  refine ensures_bind.mpr <| ensures_missing.mono (fun found t ⟨ht, hm⟩ => ?_) fun _ _ => .inl
  subst ht
  rw [ensures_ite]
  refine ⟨fun hf => .inr <| .inl ⟨rfl, fun hl => hf (hm.mpr hl.present)⟩, fun hf => ?_⟩
  have hm := hm.mp (not_not.mp hf)
  refine ensures_bind.mpr <| (ensures_checkMembershipCapacity h).mono (fun _ t ⟨ht, hr⟩ => ?_)
    fun e t he => he.imp_right fun ⟨ht, hr⟩ => .inl ⟨ht, fun hl => hr hl.room⟩
  subst ht
  have ⟨s', hs⟩ := hl ⟨hc, hn, hcount, hm, hr⟩
  refine ensures_bind.mpr <| ensures_callWrite (fun t ht => ⟨?_, fun ha => ?_⟩) (fun e he => ?_)
    fun ha => .inl ⟨rfl, rfl, _, ha⟩
  case refine_1 =>
    have hk := (ResourceStore.linked_linkCollectionMembers ht).collections
    refine ensures_detailOf.mono (fun _ u hu => hu ▸ ⟨⟨hc, hn, hcount, hm, hr⟩, ht⟩) fun e u hu => ?_
    obtain hu | ⟨_, hu⟩ := hu
    · exact .inr <| .inr ⟨hu.unavailable, hu.access, hr, hu.unchanged ▸ ht⟩
    · simp only [ResourceStore.getCollection, hk] at hu hc
      simp [hu] at hc
  case refine_2 => exact .inr <| .inr ⟨rfl, ⟨_, ha⟩, hr, ht⟩
  case refine_3 => simp [hs] at he

-- What a request leaves behind: the cap, and the links unless it has been accepted.
def Keeps (s : ResourceStore) {α : Type} (x : M α) : Prop :=
  x.Ensures s (fun _ s' => s'.WithinCap) fun e s' => s'.WithinCap ∧ (e.Rejected → s'.links = s.links)

theorem keeps_audited {α : Type} {action : String} {extra : List (String × Json)}
    {metadata : α → Json} {inner : M α} (h : s.WithinCap) (hi : Keeps s inner) :
    Keeps s (audited c action cid extra metadata inner) := by
  refine ensures_bind.mpr <| ensures_ofExcept.mpr ⟨fun _ _ => ?_, fun _ _ => ⟨h, fun _ => rfl⟩⟩
  refine ensures_bind.mpr <| ensures_outcome.mpr <| hi.mono (fun a t ht => ?_) fun e t ⟨ht, hr⟩ => ?_
  case refine_1 => exact ensures_bind.mpr <| ensures_audit ht (ht.congr rfl)
  case refine_2 => exact ensures_bind.mpr <| ensures_audit ⟨ht, hr⟩ ⟨ht.congr rfl, hr⟩

theorem keeps_linkInner (h : s.WithinCap) {field resource : String} {access : Uuid → Access}
    {present : Uuid → ResourceStore → Bool}
    (hl : Linkable s cid present ids sourceIds connectorIds →
      ∃ s', s.linkCollectionMembers cid sourceIds connectorIds = .ok s') :
    Keeps s (linkInner c cid field resource access present ids sourceIds connectorIds) := by
  have hk {t : ResourceStore} (hr : Room s cid sourceIds connectorIds)
      (ht : s.linkCollectionMembers cid sourceIds connectorIds = .ok t) : t.WithinCap :=
    (ResourceStore.linked_linkCollectionMembers ht).withinCap h hr.sources hr.connectors
  refine (ensures_linkInner h hl).mono (fun _ t ht => hk ht.left.room ht.right) fun e t he => ?_
  obtain he | ⟨ht, _⟩ | ⟨he, _, hr, ht⟩ := he
  · exact ⟨he.unchanged ▸ h, fun _ => he.unchanged ▸ rfl⟩
  · exact ⟨ht ▸ h, fun _ => ht ▸ rfl⟩
  · exact ⟨hk hr ht, fun hn => absurd (he ▸ hn) not_rejected_unavailable⟩

theorem keeps_linkSources (h : s.WithinCap) : Keeps s (linkSources c cid sourceIds) :=
  keeps_audited h <| keeps_linkInner h fun hl =>
    ResourceStore.exists_linkCollectionMembers hl.collection hl.present nofun

theorem keeps_linkConnectors (h : s.WithinCap) : Keeps s (linkConnectors c cid connectorIds) :=
  keeps_audited h <| keeps_linkInner h fun hl =>
    ResourceStore.exists_linkCollectionMembers hl.collection nofun hl.present

theorem keeps_unlinkInner (h : s.WithinCap) {resource path : String} {access : Uuid → Access}
    {present : Uuid → ResourceStore → Bool} {id : Uuid} {unlink : ResourceStore → ResourceStore}
    (hu : (unlink s).WithinCap) :
    Keeps s (unlinkInner c cid resource path access present id unlink) := by
  refine ensures_bind.mpr <| ensures_load.mono (fun _ t ⟨ht, _⟩ => ?_) fun e t he => ?_
  case refine_2 =>
    have ht : t = s := he.elim (·.unchanged) (·.left)
    exact ⟨ht ▸ h, fun _ => ht ▸ rfl⟩
  subst ht
  refine ensures_bind.mpr <| ensures_callRead ?_ fun e t he =>
    ⟨he.unchanged ▸ h, fun _ => he.unchanged ▸ rfl⟩
  split
  case isFalse => exact ⟨h, fun _ => rfl⟩
  case isTrue  =>
    refine ensures_bind.mpr <| ensures_callWrite (fun s' hs => ?_) nofun fun _ =>
      ⟨h, fun hn => absurd hn not_rejected_unavailable⟩
    cases hs
    exact ⟨hu, fun _ => ⟨hu, fun hn => absurd hn not_rejected_unavailable⟩⟩

theorem keeps_unlinkSource (h : s.WithinCap) {id : SourceId} : Keeps s (unlinkSource c cid id) :=
  keeps_audited h <| keeps_unlinkInner h h.unlinkCollectionSource

theorem keeps_unlinkConnector (h : s.WithinCap) {id : ConnectorId} :
    Keeps s (unlinkConnector c cid id) :=
  keeps_audited h <| keeps_unlinkInner h h.unlinkCollectionConnector

theorem id_of_build {body : CreateCollectionBody} {now : Timestamp} {collection : Collection}
    (h : body.build cid now = .ok collection) : collection.id = cid := by
  simp only [CreateCollectionBody.build, Except.bind_eq_ok] at h
  obtain ⟨_, _, _, _, _, _, h⟩ := h
  cases h
  rfl

theorem ensures_prepare (h : s.WithinCap) {body : CreateCollectionBody} :
    ((collectionCreation body).prepare c).Ensures s
      (fun collection s' => s' = s ∧ Room s collection.id body.sourceIds body.connectorIds)
      fun _ s' => s' = s := by
  refine ensures_bind.mpr <| readOnly_ofExcept.ensures.mono (fun _ t ht => ?_) fun _ _ h => h
  refine ensures_bind.mpr <| readOnly_ofExcept.ensures.mono (fun _ u hu => ?_) fun _ _ h => ht ▸ h
  subst ht hu
  refine ensures_bind.mpr <| readOnly_checkEach.ensures.mono (fun _ t ht => ?_) fun _ _ h => h
  refine ensures_bind.mpr <| readOnly_checkEach.ensures.mono (fun _ u hu => ?_) fun _ _ h => ht ▸ h
  subst ht hu
  refine ensures_bind.mpr <| readOnly_identify.ensures.mono (fun id t ht => ?_) fun _ _ h => h
  subst ht
  refine ensures_bind.mpr <| (ensures_checkMembershipCapacity h).mono (fun _ t ⟨ht, hr⟩ => ?_)
    fun _ _ he => he.elim (·.unchanged) (·.left)
  subst ht
  exact ensures_ofExcept.mpr ⟨fun collection hb => ⟨rfl, id_of_build hb ▸ hr⟩, fun _ _ => rfl⟩

theorem keeps_createCollection (h : s.WithinCap) {body : CreateCollectionBody} :
    Keeps s (createCollection c body) := by
  have hk : Keeps s (do (collectionCreation body).store c (← (collectionCreation body).prepare c)) := by
    refine ensures_bind.mpr <| (ensures_prepare h).mono (fun collection t ⟨ht, hr⟩ => ?_)
      fun e t ht => ⟨ht ▸ h, fun _ => ht ▸ rfl⟩
    subst ht
    refine ensures_bind.mpr <| ensures_callWrite (fun u hu => ?_) (fun e he => ⟨h, fun _ => rfl⟩)
      fun _ => ⟨h, fun hn => absurd hn not_rejected_unavailable⟩
    have hu : u.WithinCap :=
      (ResourceStore.linked_linkCollectionMembers hu).withinCap (h.congr rfl) hr.sources
        hr.connectors
    have hn (u' : ResourceStore) (hu' : u' = u) (e : ApiError) (he : e = .unavailable) :
        u'.WithinCap ∧ (e.Rejected → u'.links = t.links) :=
      ⟨hu' ▸ hu, fun hn => absurd (he ▸ hn) not_rejected_unavailable⟩
    refine ⟨ensures_bind.mpr ?_, fun _ => hn u rfl _ rfl⟩
    exact (ensures_detail (ensures_pure.mpr rfl)).mono (fun _ u' hu' => hu' ▸ hu)
      fun e u' he => hn u' he.unchanged e he.unavailable
  refine ensures_bind.mpr <| ensures_ofExcept.mpr ⟨fun _ _ => ?_, fun _ _ => ⟨h, fun _ => rfl⟩⟩
  refine ensures_bind.mpr <| ensures_outcome.mpr <| hk.mono (fun a t ht => ?_) fun e t ⟨ht, hr⟩ => ?_
  case refine_1 => exact ensures_bind.mpr <| ensures_audit ht (ht.congr rfl)
  case refine_2 => exact ensures_bind.mpr <| ensures_audit ⟨ht, hr⟩ ⟨ht.congr rfl, hr⟩

section Answered

variable (ha : ∀ a, c.reply a = .answered)
include ha

theorem not_unanswered {e : ApiError} {s' : ResourceStore} : ¬Unanswered c s e s' := by
  intro h
  obtain ⟨a, hn⟩ := h.access
  exact hn (ha a)

-- Where all calls are answered, the checks decide alone.
theorem ensures_linkInner_answered {field resource : String} {access : Uuid → Access}
    {present : Uuid → ResourceStore → Bool} (h : s.WithinCap)
    (hl : Linkable s cid present ids sourceIds connectorIds →
      ∃ s', s.linkCollectionMembers cid sourceIds connectorIds = .ok s') :
    (linkInner c cid field resource access present ids sourceIds connectorIds).Ensures s
      (fun _ s' => Linkable s cid present ids sourceIds connectorIds ∧
        Linked cid sourceIds connectorIds s s')
      fun _ s' => ¬Linkable s cid present ids sourceIds connectorIds ∧ s'.members = s.members := by
  refine (ensures_linkInner h hl).mono (fun _ t ht => ?_) fun e t he => ?_
  case refine_1 => exact ⟨ht.left, ResourceStore.linked_linkCollectionMembers ht.right⟩
  case refine_2 =>
    obtain he | ⟨ht, hn⟩ | ⟨_, ⟨a, he⟩, _⟩ := he
    · exact absurd he (not_unanswered ha)
    · exact ⟨hn, ht ▸ rfl⟩
    · exact absurd (ha a) he

theorem ensures_unlinkInner_answered {resource path : String} {access : Uuid → Access}
    {present : Uuid → ResourceStore → Bool} {id : Uuid} {unlink : ResourceStore → ResourceStore} :
    (unlinkInner c cid resource path access present id unlink).Ensures s
      (fun _ s' => s'.members = (unlink s).members)
      fun _ s' => s'.members = s.members ∧ ¬((s.getCollection cid).isSome ∧ present id s) := by
  refine ensures_bind.mpr <| ensures_load.mono (fun _ t ht => ?_) fun e t he => ?_
  case refine_2 =>
    obtain he | ⟨ht, hn⟩ := he
    · exact absurd he (not_unanswered ha)
    · exact ⟨ht ▸ rfl, fun h => by simp [hn] at h⟩
  obtain ⟨rfl, _⟩ := ht
  refine ensures_bind.mpr <| ensures_callRead ?_ fun e t he => absurd he (not_unanswered ha)
  split
  case isFalse hp => exact ⟨rfl, fun h => hp h.right⟩
  case isTrue =>
    refine ensures_bind.mpr <| ensures_callWrite (fun s' hs => ?_) (fun e he => ?_) fun hn => ?_
    case refine_1 =>
      cases hs
      exact ⟨rfl, fun hn => absurd (ha _) hn⟩
    case refine_2 => cases he
    case refine_3 => exact absurd (ha _) hn

end Answered

theorem linked_append (h : Linked cid sourceIds connectorIds s s') (entry : AuditEntry) :
    Linked cid sourceIds connectorIds s (s'.append entry) :=
  ⟨h.sources, h.connectors, h.tables⟩

section Audited

variable {P P' : ResourceStore → Prop} (hr : c.role.allows .write)
include hr

-- The audit log is written beside what a request is about.
theorem ensures_audited {α : Type} {action : String} {extra : List (String × Json)}
    {metadata : α → Json} {inner : M α} (hp : ∀ t entry, P t → P (t.append entry))
    (hp' : ∀ t entry, P' t → P' (t.append entry)) (h : inner.Ensures s (fun _ => P) fun _ => P') :
    (audited c action cid extra metadata inner).Ensures s (fun _ => P) fun _ => P' := by
  refine ensures_bind.mpr <| ensures_ofExcept.mpr ⟨fun _ _ => ?_, fun e he => ?_⟩
  case refine_2 => simp [Role.require, hr] at he
  refine ensures_bind.mpr <| ensures_outcome.mpr <| h.mono (fun a t ht => ?_) fun e t ht => ?_
  case refine_1 => exact ensures_bind.mpr <| ensures_audit ht (hp _ _ ht)
  case refine_2 => exact ensures_bind.mpr <| ensures_audit ht (hp' _ _ ht)

variable (ha : ∀ a, c.reply a = .answered)
include ha

theorem linkSources_answered (h : s.WithinCap) : (linkSources c cid ids).Ensures s
    (fun _ s' => Linkable s cid sourceExists ids ids [] ∧ Linked cid ids [] s s')
    fun _ s' => ¬Linkable s cid sourceExists ids ids [] ∧ s'.members = s.members :=
  ensures_audited hr (fun _ entry h => ⟨h.left, linked_append h.right entry⟩) (fun _ _ h => h) <|
    ensures_linkInner_answered ha h fun hl =>
      ResourceStore.exists_linkCollectionMembers hl.collection hl.present (List.forall_mem_nil _)

theorem linkConnectors_answered (h : s.WithinCap) : (linkConnectors c cid ids).Ensures s
    (fun _ s' => Linkable s cid connectorExists ids [] ids ∧ Linked cid [] ids s s')
    fun _ s' => ¬Linkable s cid connectorExists ids [] ids ∧ s'.members = s.members :=
  ensures_audited hr (fun _ entry h => ⟨h.left, linked_append h.right entry⟩) (fun _ _ h => h) <|
    ensures_linkInner_answered ha h fun hl =>
      ResourceStore.exists_linkCollectionMembers hl.collection (List.forall_mem_nil _) hl.present

-- Where a member is not there, it has no links.
theorem unlinkSource_answered {id : SourceId} : (unlinkSource c cid id).Ensures s
    (fun _ s' => s'.members = (s.unlinkCollectionSource cid id).members)
    fun _ s' => s'.members = (s.unlinkCollectionSource cid id).members := by
  refine ensures_audited hr (fun _ _ h => h) (fun _ _ h => h) <|
    (ensures_unlinkInner_answered ha).mono (fun _ _ h => h) fun _ t ht => ht.left.trans ?_
  have hn : (cid, id) ∉ s.collectionSources := fun hm => ht.right (s.source_links _ hm)
  exact congrArg (fun links => (s.tables, links, s.collectionConnectors))
    (Finset.erase_eq_of_notMem hn).symm

theorem unlinkConnector_answered {id : ConnectorId} : (unlinkConnector c cid id).Ensures s
    (fun _ s' => s'.members = (s.unlinkCollectionConnector cid id).members)
    fun _ s' => s'.members = (s.unlinkCollectionConnector cid id).members := by
  refine ensures_audited hr (fun _ _ h => h) (fun _ _ h => h) <|
    (ensures_unlinkInner_answered ha).mono (fun _ _ h => h) fun _ t ht => ht.left.trans ?_
  have hn : (cid, id) ∉ s.collectionConnectors := fun hm => ht.right (s.connector_links _ hm)
  exact congrArg (fun links => (s.tables, s.collectionSources, links))
    (Finset.erase_eq_of_notMem hn).symm

end Audited

-- Members which are linked once more change nothing, and only the store can refuse them.
theorem links_of_linked (hl : Linked cid sourceIds connectorIds s s')
    (hs : ∀ id ∈ sourceIds, (cid, id) ∈ s.collectionSources)
    (hn : ∀ id ∈ connectorIds, (cid, id) ∈ s.collectionConnectors) : s'.links = s.links := by
  refine Prod.ext (Finset.ext fun link => ?_) (Finset.ext fun link => ?_)
  · refine (hl.sources _).trans <| or_iff_left_of_imp fun hm => ?_
    have hi := hs _ hm.right
    rwa [← hm.left] at hi
  · refine (hl.connectors _).trans <| or_iff_left_of_imp fun hm => ?_
    have hi := hn _ hm.right
    rwa [← hm.left] at hi

theorem linkSources_members (h : s.WithinCap) (hn : ids ≠ []) (hc : ids.length ≤ maxLinksPerRequest)
    (hm : ∀ id ∈ ids, (cid, id) ∈ s.collectionSources) (hr : c.role.allows .write)
    (ha : ∀ a, c.reply a = .answered) :
    ∃ d s', (linkSources c cid ids).run s = (.ok d, s') ∧ s'.links = s.links := by
  obtain ⟨id, hi⟩ := List.exists_mem_of_ne_nil ids hn
  have hl : Linkable s cid sourceExists ids ids [] := {
    collection := (s.source_links _ (hm id hi)).left
    nonempty   := hn
    count      := hc
    present    := fun id hi => (s.source_links _ (hm id hi)).right
    room       := ⟨fun id hi => .inl <| ResourceStore.mem_collectionsOfSource.mpr (hm id hi),
                    List.forall_mem_nil _⟩ }
  refine ((linkSources_answered hr ha h).mono (fun _ t ht => ?_) fun _ _ he => he.left hl).exists_ok
  exact links_of_linked ht.right hm (List.forall_mem_nil _)

theorem linkConnectors_members (h : s.WithinCap) (hn : ids ≠ [])
    (hc : ids.length ≤ maxLinksPerRequest) (hm : ∀ id ∈ ids, (cid, id) ∈ s.collectionConnectors)
    (hr : c.role.allows .write) (ha : ∀ a, c.reply a = .answered) :
    ∃ d s', (linkConnectors c cid ids).run s = (.ok d, s') ∧ s'.links = s.links := by
  obtain ⟨id, hi⟩ := List.exists_mem_of_ne_nil ids hn
  have hl : Linkable s cid connectorExists ids [] ids := {
    collection := (s.connector_links _ (hm id hi)).left
    nonempty   := hn
    count      := hc
    present    := fun id hi => (s.connector_links _ (hm id hi)).right
    room       := ⟨List.forall_mem_nil _,
                    fun id hi => .inl <| ResourceStore.mem_collectionsOfConnector.mpr (hm id hi)⟩ }
  refine ((linkConnectors_answered hr ha h).mono (fun _ t ht => ?_) fun _ _ he => he.left hl).exists_ok
  exact links_of_linked ht.right (List.forall_mem_nil _) hm

end Requests

end Resources
