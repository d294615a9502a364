import OsintCore.Api.Theorems.Pagination
import OsintCore.Control.Except
import OsintCore.Normalizer.Service
import OsintCore.Table.Fold

namespace NormalizerStore

variable {s s' : NormalizerStore} {p : Provenance} {e : RawEvidenceId} {d : DocumentId}

-- What a call reads before its transaction is not changed by any.
structure SameInputs (s s' : NormalizerStore) : Prop where
  rawEvidence : s'.rawEvidence = s.rawEvidence
  objects     : s'.objects = s.objects
  collections : s'.rawEvidenceCollections = s.rawEvidenceCollections

theorem SameInputs.refl (s : NormalizerStore) : s.SameInputs s :=
  ⟨rfl, rfl, rfl⟩

theorem SameInputs.trans {t : NormalizerStore} (h : s.SameInputs s') (h' : s'.SameInputs t) :
    s.SameInputs t :=
  ⟨h'.rawEvidence.trans h.rawEvidence, h'.objects.trans h.objects, h'.collections.trans h.collections⟩

theorem SameInputs.collectionsOf_eq (h : s.SameInputs s') : s'.collectionsOf e = s.collectionsOf e := by
  rw [collectionsOf, collectionsOf, h.collections]

theorem of_putProvenance (h : s.putProvenance p = .ok s') :
    s.provenance.Admits Provenance.normalizedOf p ∧ s'.provenance = s.provenance.put p ∧
      s'.documents = s.documents ∧ s'.collectionObjects = s.collectionObjects ∧
      s.SameInputs s' := by
  unfold putProvenance at h
  split_ifs at h with hu hr
  cases h
  exact ⟨hu, rfl, rfl, rfl, rfl, rfl, rfl⟩

theorem mem_listProvenanceByRawEvidence :
    p ∈ s.listProvenanceByRawEvidence e ↔ p ∈ s.provenance ∧ p.rawEvidenceId = some e := by
  simp [listProvenanceByRawEvidence, Table.mem_def]

theorem mem_listCollectionsByRawEvidence {limit : Nat}
    (h : (s.collectionsOf e).length ≤ Store.clampLimit limit) {id : CollectionId} :
    id ∈ s.listCollectionsByRawEvidence e limit ↔ id ∈ s.collectionsOf e := by
  rw [listCollectionsByRawEvidence, List.take_of_length_le (by simpa using h)]
  simp

-- The documents which are stored and have been derived from the evidence.
def Derived (s : NormalizerStore) (e : RawEvidenceId) (d : DocumentId) : Prop :=
  (s.documents.get? d).isSome ∧
    ∃ p ∈ s.provenance, p.action = actionDerived ∧ p.rawEvidenceId = some e ∧ p.subjectId = d

def Used (s : NormalizerStore) (id : Uuid) : Prop :=
  (s.documents.get? id).isSome ∨ (s.provenance.get? id).isSome

-- The claim stands for the documents of the evidence, which are in all of its collections.
structure ClaimedBy (e : RawEvidenceId) (s : NormalizerStore) (claim : Provenance) : Prop where
  stored  : claim ∈ s.provenance
  claims  : claim.normalizedOf = some e
  derived : ∀ d, s.Derived e d ↔ d ∈ Normalizer.documentIdsFrom claim
  linked  : ∀ d ∈ Normalizer.documentIdsFrom claim, ∀ id ∈ s.collectionsOf e,
    (id, d) ∈ s.collectionObjects

structure Untouched (e : RawEvidenceId) (s : NormalizerStore) : Prop where
  unclaimed : ∀ p ∈ s.provenance, p.normalizedOf ≠ some e
  underived : ∀ p ∈ s.provenance, p.action = actionDerived → p.rawEvidenceId ≠ some e

def Settled (e : RawEvidenceId) (s : NormalizerStore) : Prop :=
  s.Untouched e ∨ ∃ claim, s.ClaimedBy e claim

theorem ClaimedBy.unique {claim : Provenance} (h : s.ClaimedBy e claim)
    (hp : p ∈ s.provenance) (hc : p.normalizedOf = some e) : p = claim :=
  s.provenance_normalized.eq hp h.stored hc h.claims

-- What a call may change. The identifiers which it brings in satisfy `P`.
structure Extends (e : RawEvidenceId) (P : Uuid → Prop) (s s' : NormalizerStore) : Prop where
  settled : s.Settled e → s'.Settled e
  claims  : ∀ p ∈ s.provenance, p.normalizedOf = some e → p ∈ s'.provenance
  used    : ∀ id, s'.Used id → s.Used id ∨ P id
  inputs  : s.SameInputs s'

namespace Extends

variable {P P' : Uuid → Prop} {t : NormalizerStore}

theorem refl (s : NormalizerStore) : s.Extends e P s where
  settled      := id
  claims _ h _ := h
  used _       := .inl
  inputs       := .refl s

theorem trans (h : s.Extends e P s') (h' : s'.Extends e P t) : s.Extends e P t where
  settled        := h'.settled ∘ h.settled
  claims p hp hc := h'.claims p (h.claims p hp hc) hc
  used id hu     := (h'.used id hu).elim (h.used id) .inr
  inputs         := h.inputs.trans h'.inputs

theorem mono (h : s.Extends e P s') (hp : ∀ id, P id → P' id) : s.Extends e P' s' :=
  { h with used := fun id hu => (h.used id hu).imp_right (hp id) }

end Extends

end NormalizerStore

namespace Normalizer

open NormalizerStore

variable {w : Normalizer} {c : Call} {evidence : CollectedEvidence} {s s' : NormalizerStore}
variable {collectionIds : List CollectionId} {rows : List (Document × ProvenanceId)}
variable {documents : List Document} {e : RawEvidenceId} {n : Nat}

section Transaction

-- What the loop of the transaction leaves.
structure Wrote (w : Normalizer) (c : Call) (evidence : CollectedEvidence)
    (collectionIds : List CollectionId) (rows : List (Document × ProvenanceId))
    (s s' : NormalizerStore) : Prop where
  documents   : s'.documents = (rows.map Prod.fst).foldl .put s.documents
  provenance  : s'.provenance =
    (rows.map fun row => w.derivedOf c evidence row.fst row.snd).foldl .put s.provenance
  linked      : ∀ x, x ∈ s'.collectionObjects ↔ x ∈ s.collectionObjects ∨
    x.fst ∈ collectionIds ∧ ∃ row ∈ rows, row.fst.id = x.snd
  inputs      : s.SameInputs s'

theorem foldl_link {id : DocumentId} :
    let t := collectionIds.foldl (·.linkCollectionObject · id) s
    t.documents = s.documents ∧ t.provenance = s.provenance ∧ s.SameInputs t ∧
      ∀ x, x ∈ t.collectionObjects ↔
        x ∈ s.collectionObjects ∨ x.fst ∈ collectionIds ∧ id = x.snd := by
  induction collectionIds generalizing s
  case nil            => simpa using SameInputs.refl s
  case cons cid l hi =>
    have ⟨hd, hp, hc, ho⟩ := @hi (s.linkCollectionObject cid id)
    have hl : s.SameInputs (s.linkCollectionObject cid id) := ⟨rfl, rfl, rfl⟩
    refine ⟨hd, hp, hl.trans hc, fun x => (ho x).trans ?_⟩
    simp only [linkCollectionObject, Finset.mem_insert, List.mem_cons, Prod.ext_iff]
    grind

theorem wrote_writeDocument {row : Document × ProvenanceId}
    (h : w.writeDocument c evidence collectionIds s row = .ok s') :
    Wrote w c evidence collectionIds [row] s s' := by
  have ⟨_, hp, hd, ho, hc⟩ := of_putProvenance h
  have ⟨hd', hp', hc', ho'⟩ :=
    @foldl_link (s.putDocument row.fst) collectionIds row.fst.id
  have hput : s.SameInputs (s.putDocument row.fst) := ⟨rfl, rfl, rfl⟩
  exact {
    documents   := hd.trans hd'
    provenance  := hp.trans <| by rw [hp']; rfl
    linked x    := by rw [ho, ho' x]; simp [putDocument]
    inputs      := (hput.trans hc').trans hc }

theorem wrote_foldlM (h : rows.foldlM (w.writeDocument c evidence collectionIds) s = .ok s') :
    Wrote w c evidence collectionIds rows s s' := by
  induction rows generalizing s
  case nil =>
    cases h
    exact ⟨rfl, rfl, by simp, .refl _⟩
  case cons row rows hi =>
    have ⟨t, ht, h⟩ := Except.bind_eq_ok.mp h
    have h₁ := wrote_writeDocument ht
    have h₂ := hi h
    exact {
      documents   := h₂.documents.trans <| by rw [h₁.documents]; rfl
      provenance  := h₂.provenance.trans <| by rw [h₁.provenance]; rfl
      linked x    := by rw [h₂.linked, h₁.linked]; simp [or_assoc, and_or_left]
      inputs      := h₁.inputs.trans h₂.inputs }

theorem documentIdsFrom_claimOf {id : ProvenanceId} (h : ∀ d ∈ documents, d.id < 2 ^ 128) :
    documentIdsFrom (w.claimOf c evidence documents id) = documents.map (·.id) := by
  have hp : documents.filterMap (fun d => Uuid.parseStr d.id.toText) = documents.map (·.id) := by
    rw [← List.filterMap_eq_map]
    exact List.filterMap_congr fun d hd => Uuid.parseStr_toText (h d hd)
  simpa [documentIdsFrom, claimOf, Json.get, Json.asObject, Json.asArray, Json.asStr, List.lookup,
    List.filterMap_map, Function.comp_def] using hp

-- The first `n` identifiers of a call are new.
structure Fresh (c : Call) (n : Nat) (s : NormalizerStore) : Prop where
  distinct : ∀ k < n, ∀ l < n, c.ids k = c.ids l → k = l
  unused   : ∀ k < n, ¬s.Used (c.ids k)
  valid    : ∀ k < n, c.ids k < 2 ^ 128

-- The documents have taken the first identifiers.
def Numbered (c : Call) (documents : List Document) : Prop :=
  ∀ k d, documents[k]? = some d → d.id = c.ids k

def rowsOf (c : Call) (documents : List Document) : List (Document × ProvenanceId) :=
  documents.zipIdx.map fun (document, k) => (document, c.ids (documents.length + k))

theorem mem_rowsOf {row : Document × ProvenanceId} : row ∈ rowsOf c documents ↔
    ∃ k, documents[k]? = some row.fst ∧ row.snd = c.ids (documents.length + k) := by
  simp only [rowsOf, List.mem_map, Prod.exists, List.mk_mem_zipIdx_iff_getElem?]
  constructor
  case mp  => exact fun ⟨d, k, hd, hr⟩ => ⟨k, by rw [← hr]; exact ⟨hd, rfl⟩⟩
  case mpr => exact fun ⟨k, hd, hr⟩ => ⟨row.fst, k, hd, by rw [← hr]⟩

theorem map_rowsOf : (rowsOf c documents).map Prod.fst = documents := by
  simp [rowsOf, List.zipIdx_map_fst, Function.comp_def]

theorem lt_of_getElem? {d : Document} {k : Nat} (hn : documents.length + documents.length < n)
    (hk : documents[k]? = some d) : k < n ∧ documents.length + k < n := by
  have ⟨hl, _⟩ := List.getElem?_eq_some_iff.mp hk
  omega

section Fresh

variable (hf : Fresh c n s) (hn : documents.length + documents.length < n)
variable (hd : Numbered c documents)
include hf hn hd

theorem eq_of_numbered {a b : Document} (ha : a ∈ documents) (hb : b ∈ documents)
    (h : a.id = b.id) : a = b := by
  have ⟨i, hi⟩ := List.mem_iff_getElem?.mp ha
  have ⟨j, hj⟩ := List.mem_iff_getElem?.mp hb
  have he : i = j := hf.distinct i (lt_of_getElem? hn hi).left j (lt_of_getElem? hn hj).left <|
    (hd i a hi).symm.trans <| h.trans (hd j b hj)
  subst he
  exact Option.some.inj <| hi.symm.trans hj

theorem documentIdsFrom_claimOf_numbered {id : ProvenanceId} :
    documentIdsFrom (w.claimOf c evidence documents id) = documents.map (·.id) := by
  refine documentIdsFrom_claimOf fun d hm => ?_
  have ⟨k, hk⟩ := List.mem_iff_getElem?.mp hm
  exact hd k d hk ▸ hf.valid k (lt_of_getElem? hn hk).left

end Fresh

variable {t : NormalizerStore}

-- The rows of the loop, in which the subjects are the documents.
def derivedRows (w : Normalizer) (c : Call) (evidence : CollectedEvidence)
    (documents : List Document) : List Provenance :=
  (rowsOf c documents).map fun row => w.derivedOf c evidence row.fst row.snd

theorem mem_derivedRows {p : Provenance} : p ∈ w.derivedRows c evidence documents ↔
    ∃ k d, documents[k]? = some d ∧
      p = w.derivedOf c evidence d (c.ids (documents.length + k)) := by
  simp only [derivedRows, List.mem_map]
  constructor
  case mp =>
    intro ⟨row, hr, hp⟩
    have ⟨k, hk, hi⟩ := mem_rowsOf.mp hr
    exact ⟨k, row.fst, hk, hi ▸ hp.symm⟩
  case mpr =>
    intro ⟨k, d, hk, hp⟩
    exact ⟨(d, c.ids (documents.length + k)), mem_rowsOf.mpr ⟨k, hk, rfl⟩, hp.symm⟩

-- The stored rows after a transaction which has gone through.
structure Committed (w : Normalizer) (c : Call) (evidence : CollectedEvidence)
    (documents : List Document) (s t : NormalizerStore) : Prop where
  provenance  : ∀ p, p ∈ t.provenance ↔
    p = w.claimOf c evidence documents (c.ids (documents.length + documents.length)) ∨
      p ∈ w.derivedRows c evidence documents ∨ p ∈ s.provenance
  stored      : ∀ i, (t.documents.get? i).isSome ↔
    (∃ d ∈ documents, d.id = i) ∨ (s.documents.get? i).isSome
  linked      : ∀ id ∈ s.listCollectionsByRawEvidence evidence.id 100, ∀ d ∈ documents,
    (id, d.id) ∈ t.collectionObjects
  inputs      : s.SameInputs t
  unclaimed   : ∀ p ∈ s.provenance, p.normalizedOf ≠ some evidence.id

theorem committed (hf : Fresh c n s) (hn : documents.length + documents.length < n)
    (hd : Numbered c documents) (h : w.writeDocuments c evidence documents s = .ok t) :
    Committed w c evidence documents s t := by
  have ⟨u, hu, h⟩ := Except.bind_eq_ok.mp h
  have hw := wrote_foldlM hu
  have ⟨ha, hp, hd', ho, hc⟩ := of_putProvenance h
  have hold {p : Provenance} (hp : p ∈ s.provenance) (k : Nat) (hk : k < n) : c.ids k ≠ p.id :=
    fun he => hf.unused k hk <| .inr <| Table.isSome_get?.mpr ⟨p, hp, he.symm⟩
  have hu' (p : Provenance) : p ∈ u.provenance ↔
      p ∈ w.derivedRows c evidence documents ∨ p ∈ s.provenance := by
    rw [hw.provenance]
    refine Iff.trans (Table.mem_foldl_put (fun a ha b hb he => ?_) _) <| or_congr_right ?_
    case refine_1 =>
      have ⟨k, d, hk, ha⟩   := mem_derivedRows.mp ha
      have ⟨k', d', hk', hb⟩ := mem_derivedRows.mp hb
      subst ha hb
      have he : k = k' := Nat.add_left_cancel <|
        hf.distinct _ (lt_of_getElem? hn hk).right _ (lt_of_getElem? hn hk').right he
      subst he
      cases hk.symm.trans hk'
      rfl
    case refine_2 =>
      refine and_iff_left_of_imp fun hp a ha => ?_
      have ⟨k, d, hk, ha⟩ := mem_derivedRows.mp ha
      subst ha
      exact hold hp _ (lt_of_getElem? hn hk).right
  have hne {p : Provenance} (hp : p ∈ u.provenance) :
      p.id ≠ c.ids (documents.length + documents.length) := by
    obtain hp | hp := (hu' p).mp hp
    case inl =>
      have ⟨k, d, hk, hp⟩ := mem_derivedRows.mp hp
      have ⟨hl, _⟩        := List.getElem?_eq_some_iff.mp hk
      subst hp
      exact fun he => hl.ne <| Nat.add_left_cancel <|
        hf.distinct _ (lt_of_getElem? hn hk).right _ hn he
    case inr => exact (hold hp _ hn).symm
  refine { provenance := fun p => ?_, stored := fun i => ?_, linked := fun id hi d hm => ?_,
           inputs := hw.inputs.trans hc, unclaimed := fun p hm he => ?_ }
  case refine_1 =>
    rw [hp, Table.mem_put, ← hu']
    exact or_congr_right <| and_iff_left_of_imp hne
  case refine_2 =>
    rw [hd', hw.documents, ← rowsOf, map_rowsOf, Table.isSome_get?, Table.isSome_get?]
    have hm := @Table.mem_foldl_put _ _ _ _ _
      (fun a ha b hb => eq_of_numbered hf hn hd ha hb) s.documents
    constructor
    case mp =>
      intro ⟨d, hdm, hi⟩
      obtain h | h := hm.mp hdm
      · exact .inl ⟨d, h, hi⟩
      · exact .inr ⟨d, h.left, hi⟩
    case mpr =>
      rintro (⟨d, hdm, hi⟩ | ⟨d, hdm, hi⟩)
      · exact ⟨d, hm.mpr <| .inl hdm, hi⟩
      · by_cases ha : ∃ a ∈ documents, a.id = d.id
        case pos =>
          have ⟨a, ha, he⟩ := ha
          exact ⟨a, hm.mpr <| .inl ha, he.trans hi⟩
        case neg => exact ⟨d, hm.mpr <| .inr ⟨hdm, fun a h he => ha ⟨a, h, he⟩⟩, hi⟩
  case refine_3 =>
    rw [ho, hw.linked]
    have ⟨k, hk⟩ := List.mem_iff_getElem?.mp hm
    exact .inr ⟨hi, (d, _), mem_rowsOf.mpr ⟨k, hk, rfl⟩, rfl⟩
  case refine_4 =>
    have hm := (hu' p).mpr <| .inr hm
    exact ha p hm (hne hm) rfl he

-- The claim of a transaction which has gone through.
abbrev newClaim (w : Normalizer) (c : Call) (evidence : CollectedEvidence)
    (documents : List Document) : Provenance :=
  w.claimOf c evidence documents (c.ids (documents.length + documents.length))

theorem limit_le {n : Nat} (hn : n ≤ 100) : n ≤ Store.clampLimit 100 :=
  hn

variable (hs : s.Settled evidence.id) (hl : (s.collectionsOf evidence.id).length ≤ 100)
variable (h : Committed w c evidence documents s t)
include h hs

theorem Committed.untouched : s.Untouched evidence.id := by
  obtain hu | ⟨claim, hc⟩ := hs
  · exact hu
  · exact absurd hc.claims <| h.unclaimed claim hc.stored

theorem Committed.derived (d : DocumentId) :
    t.Derived evidence.id d ↔ d ∈ documents.map (·.id) := by
  rw [List.mem_map]
  constructor
  case mp =>
    intro ⟨_, p, hp, ha, he, hd⟩
    obtain rfl | hp | hp := (h.provenance p).mp hp
    · exact absurd ha <| by simp [claimOf, actionNormalized, actionDerived]
    · have ⟨k, d', hk, hp⟩ := mem_derivedRows.mp hp
      subst hp
      exact ⟨d', List.mem_of_getElem? hk, hd⟩
    · exact absurd he <| (h.untouched hs).underived p hp ha
  case mpr =>
    intro ⟨d', hm, hd⟩
    have ⟨k, hk⟩ := List.mem_iff_getElem?.mp hm
    refine ⟨(h.stored d).mpr <| .inl ⟨d', hm, hd⟩, _, (h.provenance _).mpr <| .inr <| .inl <|
      mem_derivedRows.mpr ⟨k, d', hk, rfl⟩, rfl, rfl, hd⟩

variable (hf : Fresh c n s) (hn : documents.length + documents.length < n)
variable (hd : Numbered c documents)
include hl hf hn hd

theorem Committed.claimedBy :
    t.ClaimedBy evidence.id (w.newClaim c evidence documents) where
  stored    := (h.provenance _).mpr <| .inl rfl
  claims    := rfl
  derived d := by rw [h.derived hs, documentIdsFrom_claimOf_numbered hf hn hd]
  linked d hm id hi := by
    rw [documentIdsFrom_claimOf_numbered hf hn hd] at hm
    have ⟨d', hm, hd⟩ := List.mem_map.mp hm
    rw [h.inputs.collectionsOf_eq, ← mem_listCollectionsByRawEvidence (limit_le hl)] at hi
    exact hd ▸ h.linked id hi d' hm

theorem Committed.extends : s.Extends evidence.id (∃ k < n, · = c.ids k) t where
  settled _      := .inr ⟨_, h.claimedBy hs hl hf hn hd⟩
  claims p hp hc := absurd hc <| h.unclaimed p hp
  inputs         := h.inputs
  used id hu     := by
    obtain hu | hu := hu
    case inl =>
      obtain ⟨d, hm, hi⟩ | hu := (h.stored id).mp hu
      · have ⟨k, hk⟩ := List.mem_iff_getElem?.mp hm
        exact .inr ⟨k, (lt_of_getElem? hn hk).left, hi.symm.trans (hd k d hk)⟩
      · exact .inl <| .inl hu
    case inr =>
      have ⟨p, hp, hi⟩ := Table.isSome_get?.mp hu
      obtain rfl | hp | hp := (h.provenance p).mp hp
      · exact .inr ⟨_, hn, hi.symm⟩
      · have ⟨k, d, hk, hp⟩ := mem_derivedRows.mp hp
        subst hp
        exact .inr ⟨_, (lt_of_getElem? hn hk).right, hi.symm⟩
      · exact .inl <| .inr <| Table.isSome_get?.mpr ⟨p, hp, hi⟩

end Transaction

end Normalizer
