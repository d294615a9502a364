import OsintCore.Resources.Collections

namespace Resources

inductive PostRequest
  | source (body : CreateSourceBody)
  | connector (body : CreateConnectorBody)
  | seed (body : CreateSeedBody)
  | collection (body : CreateCollectionBody)

namespace PostRequest

def post (c : Call) : PostRequest → M Created
  | source body     => createSource c body
  | connector body  => createConnector c body
  | seed body       => createSeed c body
  | collection body => createCollection c body

abbrev Model : PostRequest → Type
  | source _     => Source
  | connector _  => Connector
  | seed _       => Seed
  | collection _ => Collection

def creation : (r : PostRequest) → Creation r.Model
  | source body     => sourceCreation body
  | connector body  => connectorCreation body
  | seed body       => seedCreation body
  | collection body => collectionCreation body

theorem post_eq_create {r : PostRequest} {c : Call} : r.post c = r.creation.create c := by
  cases r <;> rfl

-- The row which the body asks for.
def row (c : Call) : PostRequest → Except ApiError Row
  | source body     => .source <$> body.build (body.id.getD c.newId) c.now
  | connector body  => .connector <$> body.build (body.id.getD c.newId)
  | seed body       => .seed <$> body.build (body.id.getD c.newId) c.now
  | collection body => .collection <$> body.build (body.id.getD c.newId) c.now

end PostRequest

theorem Call.readOnly_read {α : Type} {c : Call} {a : Access} {f : ResourceStore → α} :
    (c.read a f).ReadOnly := by
  unfold Call.read
  split <;> simp

section Identify

variable {c : Call} {requested : Option Uuid} {access : Uuid → Access}
variable {taken : Uuid → ResourceStore → Bool} {conflict : String → String}

theorem readOnly_identify : (identify c requested access taken conflict).ReadOnly := by
  cases requested
  case none    => trivial
  case some id => exact Call.readOnly_read.bind fun b => by cases b <;> trivial

theorem yields_identify :
    (identify c requested access taken conflict).Yields (· = requested.getD c.newId) := by
  cases requested
  case none    => rfl
  case some id => exact Resumption.yields_true.bind fun b _ => by cases b <;> trivial

end Identify

theorem readOnly_checkMembershipCapacity {c : Call} {id : CollectionId}
    {sourceIds connectorIds : List Uuid} {nothingWritten : String} :
    (checkMembershipCapacity c id sourceIds connectorIds nothingWritten).ReadOnly := by
  have ho {access : Uuid → Access} {list : ResourceStore → Uuid → Nat → List CollectionId}
      {max : Nat} {ids : List Uuid} : (overCapacity c access list max id ids).ReadOnly := by
    refine (Resumption.ReadOnly.foldlM fun found i => ?_).map
    unfold overCapacity.visit
    split
    case isTrue  => trivial
    case isFalse => exact Call.readOnly_read.bind fun existing => by split <;> trivial
  exact ho.bind fun _ => ho.bind fun _ => by split <;> trivial

theorem readOnly_checkEach {c : Call} {field : String} {access : Uuid → Access}
    {present : Uuid → ResourceStore → Bool} {ids : List Uuid} :
    (checkEach c field access present ids).ReadOnly :=
  .forM fun _ => Call.readOnly_read.bind fun b => by cases b <;> trivial

-- The row is written, and nothing else that a POST can make.
structure Adds (r : Row) (s s' : ResourceStore) : Prop where
  row?     : ∀ k, s'.row? k = if k = r.key then some r else s.row? k
  auditLog : s'.auditLog = s.auditLog

theorem map_get?_put {α : Type} [Keyed α Uuid] {t : Table α} {a : α} {id : Uuid} {f : α → Row}
    (kind : Kind) : f <$> (t.put a).get? id =
      if ((kind, id) : Kind × Uuid) = (kind, Keyed.key a) then some (f a)
      else f <$> t.get? id := by
  by_cases h : Keyed.key a = id
  case pos => simp [h]
  case neg => simp [h, Ne.symm h]

namespace ResourceStore

variable {s s' : ResourceStore}

theorem adds_putSource (source : Source) : Adds (.source source) s (s.putSource source) where
  row? := by
    intro (kind, id)
    cases kind
    case source => exact map_get?_put .source
    all_goals rfl
  auditLog := rfl

theorem adds_putConnector {connector : Connector} (h : s.putConnector connector = .ok s') :
    Adds (.connector connector) s s' := by
  simp only [putConnector] at h
  split at h
  case isFalse => cases h
  case isTrue =>
    cases h
    refine ⟨fun (kind, id) => ?_, rfl⟩
    cases kind
    case connector => exact map_get?_put .connector
    all_goals rfl

theorem adds_putSeed {seed : Seed} (h : s.putSeed seed = .ok s') : Adds (.seed seed) s s' := by
  simp only [putSeed] at h
  split at h
  case isFalse => cases h
  case isTrue =>
    split at h
    case isFalse => cases h
    case isTrue =>
      cases h
      refine ⟨fun (kind, id) => ?_, rfl⟩
      cases kind
      case seed => exact map_get?_put .seed
      all_goals rfl

theorem adds_putCollection (collection : Collection) :
    Adds (.collection collection) s (s.putCollection collection) where
  row? := by
    intro (kind, id)
    cases kind
    case collection => exact map_get?_put .collection
    all_goals rfl
  auditLog := rfl

-- What a POST can make and what is recorded about it.
def rows (s : ResourceStore) : (Kind × Uuid → Option Row) × List AuditEntry :=
  (s.row?, s.auditLog)

theorem rows_linkCollectionSource {id : CollectionId} {sourceId : SourceId}
    (h : s.linkCollectionSource id sourceId = .ok s') : s'.rows = s.rows := by
  simp only [linkCollectionSource] at h
  split at h
  case isTrue  => cases h; rfl
  case isFalse => cases h

theorem rows_linkCollectionConnector {id : CollectionId} {connectorId : ConnectorId}
    (h : s.linkCollectionConnector id connectorId = .ok s') : s'.rows = s.rows := by
  simp only [linkCollectionConnector] at h
  split at h
  case isTrue  => cases h; rfl
  case isFalse => cases h

theorem rows_linkCollectionMembers {id : CollectionId} {sourceIds connectorIds : List Uuid}
    (h : s.linkCollectionMembers id sourceIds connectorIds = .ok s') : s'.rows = s.rows := by
  simp only [linkCollectionMembers, Except.bind_eq_ok] at h
  obtain ⟨t, ht, h⟩ := h
  calc
    s'.rows = t.rows := List.foldlM_constant h fun _ _ _ _ => rows_linkCollectionConnector
    _       = s.rows := List.foldlM_constant ht fun _ _ _ _ => rows_linkCollectionSource

theorem adds_createCollectionWithMembers {collection : Collection}
    {sourceIds connectorIds : List Uuid}
    (h : s.createCollectionWithMembers collection sourceIds connectorIds = .ok s') :
    Adds (.collection collection) s s' := by
  have hr := rows_linkCollectionMembers h
  simp only [rows, Prod.mk.injEq] at hr
  have ha := @adds_putCollection s collection
  exact ⟨hr.left ▸ ha.row?, hr.right ▸ ha.auditLog⟩

end ResourceStore

-- What the handlers have in common.
structure Creation.Sound {ρ : Type} (k : Creation ρ) (asked : Call → Except ApiError Row) :
    Prop where
  prepare_readOnly : ∀ c, (k.prepare c).ReadOnly
  prepare_yields   : ∀ c, (k.prepare c).Yields fun row => asked c = .ok (k.row row)
  answer_readOnly  : ∀ c row, (k.answer c row).ReadOnly
  answer_yields    : ∀ c row, (k.answer c row).Yields fun created => created.row = k.row row
  adds             : ∀ {c row s s'}, k.put c row s = .ok s' → Adds (k.row row) s s'

section Sound

open Resumption

theorem sound_sourceCreation {body : CreateSourceBody} :
    (sourceCreation body).Sound (PostRequest.row · (.source body)) where
  prepare_readOnly _ := readOnly_identify.bind fun _ => readOnly_ofExcept
  prepare_yields c   := yields_identify.bind fun id hi => yields_ofExcept fun source h => by
    subst hi
    simp [PostRequest.row, h, sourceCreation]
  answer_readOnly _ _ := trivial
  answer_yields _ _   := rfl
  adds h              := by cases h; exact ResourceStore.adds_putSource _

theorem sound_connectorCreation {body : CreateConnectorBody} :
    (connectorCreation body).Sound (PostRequest.row · (.connector body)) where
  prepare_readOnly c := by
    refine Call.readOnly_read.bind fun b => ?_
    cases b
    case false => trivial
    case true  => exact readOnly_identify.bind fun _ => readOnly_ofExcept
  prepare_yields c   := by
    refine yields_true.bind fun b _ => ?_
    cases b
    case false => trivial
    case true  =>
      refine yields_identify.bind fun id hi => yields_ofExcept fun connector h => ?_
      subst hi
      simp [PostRequest.row, h, connectorCreation]
  answer_readOnly _ _ := trivial
  answer_yields _ _   := rfl
  adds                := ResourceStore.adds_putConnector

theorem sound_seedCreation {body : CreateSeedBody} :
    (seedCreation body).Sound (PostRequest.row · (.seed body)) where
  prepare_readOnly _ := readOnly_identify.bind fun _ => readOnly_ofExcept
  prepare_yields c   := yields_identify.bind fun id hi => yields_ofExcept fun seed h => by
    subst hi
    simp [PostRequest.row, h, seedCreation]
  answer_readOnly _ _ := trivial
  answer_yields _ _   := rfl
  adds h              := by
    simp only [seedCreation, Except.map_eq_ok] at h
    obtain ⟨t, ht, he⟩ := h
    have ha := ResourceStore.adds_putSeed ht
    subst he
    exact ⟨ha.row?, ha.auditLog⟩

theorem readOnly_detail {c : Call} {collection : Collection} {objectIds : M (List ObjectId)}
    (h : objectIds.ReadOnly) : (detail c collection objectIds).ReadOnly :=
  Call.readOnly_read.bind fun _ => Call.readOnly_read.bind fun _ => h.bind fun _ => trivial

theorem yields_detail {c : Call} {collection : Collection} {objectIds : M (List ObjectId)} :
    (detail c collection objectIds).Yields (·.collection = collection) :=
  yields_true.bind fun _ _ => yields_true.bind fun _ _ => yields_true.bind fun _ _ => rfl

theorem sound_collectionCreation {body : CreateCollectionBody} :
    (collectionCreation body).Sound (PostRequest.row · (.collection body)) where
  prepare_readOnly _ := readOnly_ofExcept.bind fun _ => readOnly_ofExcept.bind fun _ =>
    readOnly_checkEach.bind fun _ => readOnly_checkEach.bind fun _ =>
    readOnly_identify.bind fun _ => readOnly_checkMembershipCapacity.bind fun _ =>
    readOnly_ofExcept
  prepare_yields c   := yields_true.bind fun _ _ => yields_true.bind fun _ _ =>
    yields_true.bind fun _ _ => yields_true.bind fun _ _ => yields_identify.bind fun id hi =>
    yields_true.bind fun _ _ => yields_ofExcept fun collection h => by
      subst hi
      simp [PostRequest.row, h, collectionCreation]
  answer_readOnly _ _ := (readOnly_detail readOnly_pure).map
  answer_yields _ _   := yields_detail.bind fun d h => congrArg Row.collection h
  adds                := ResourceStore.adds_createCollectionWithMembers

theorem PostRequest.sound (r : PostRequest) : r.creation.Sound (r.row ·) := by
  cases r
  case source     => exact sound_sourceCreation
  case connector  => exact sound_connectorCreation
  case seed       => exact sound_seedCreation
  case collection => exact sound_collectionCreation

end Sound

end Resources
