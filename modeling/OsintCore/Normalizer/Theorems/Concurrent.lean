import OsintCore.Control.RelyGuarantee
import OsintCore.Normalizer.Theorems.Transaction

open Resumption

namespace Normalizer

open NormalizerStore

variable {w : Normalizer} {c : Call} {evidence : CollectedEvidence} {s s' : NormalizerStore}
variable {documents : List Document} {e : RawEvidenceId} {n : Nat}

-- What the documents a body consists of have in common.
theorem id_of_documentsOf {body : Body} {now : Timestamp}
    {documents : List (DocumentId → Document)}
    (h : w.documentsOf evidence body now = .ok documents) :
    ∀ document ∈ documents, ∀ id, (document id).id = id := by
  unfold documentsOf at h
  split at h
  case h_1 =>
    split_ifs at h
    unfold buildImportDocuments at h
    split at h <;> cases h
    exact List.forall_mem_map.mpr fun _ _ _ => rfl
  case h_2 =>
    split at h
    case h_1 | h_2 =>
      unfold itemsOf at h
      split at h <;> cases h
      exact List.forall_mem_map.mpr fun _ _ _ => rfl
    all_goals cases h

theorem not_reported {body : Body} {now : Timestamp} {outcome : NormalizeOutcome}
    (h : w.documentsOf evidence body now = .error outcome) (ids : List DocumentId) :
    ¬(outcome = .created ids ∨ outcome = .alreadyDone ids) := by
  unfold documentsOf at h
  split at h
  case h_1 =>
    split_ifs at h
    case pos => cases h; simp [unsupported]
    case neg =>
      unfold buildImportDocuments at h
      split at h <;> cases h <;> simp [unsupported]
  case h_2 =>
    split at h
    case h_1 | h_2 =>
      unfold itemsOf at h
      split at h <;> cases h
      simp
    all_goals cases h; simp [unsupported]

theorem numbered_zipIdx {l : List (DocumentId → Document)}
    (h : ∀ document ∈ l, ∀ id, (document id).id = id) :
    Numbered c (l.zipIdx.map fun (document, k) => document (c.ids k)) := by
  intro k d hk
  simp only [List.getElem?_map, Option.map_eq_some_iff, Prod.exists] at hk
  have ⟨document, j, hj, hd⟩ := hk
  rw [List.getElem?_zipIdx, Option.map_eq_some_iff] at hj
  have ⟨document', hm, he⟩ := hj
  cases he
  rw [← hd, h _ (List.mem_of_getElem? hm), zero_add]

section Drawn

-- What a call would store as documents, from what it reads in the store
def read? (w : Normalizer) (c : Call) (s : NormalizerStore) : Option (List (DocumentId → Document)) := do
  let evidence ← s.getRawEvidence c.rawEvidenceId
  let body ← s.objects evidence.storagePath
  (w.documentsOf evidence body c.now).toOption

-- The identifiers which a call makes up: one for each document, one for where it comes from, and one
-- for the claim.
def drawn (w : Normalizer) (c : Call) (s : NormalizerStore) : Nat :=
  (w.read? c s).elim 0 fun documents => documents.length + documents.length + 1

theorem drawn_congr (h : s.SameInputs s') : w.drawn c s' = w.drawn c s := by
  rw [drawn, drawn, read?, read?, getRawEvidence, getRawEvidence, h.rawEvidence, h.objects]

theorem drawn_eq {body : Body} {documents : List (DocumentId → Document)}
    (he : s.getRawEvidence c.rawEvidenceId = some evidence)
    (hb : s.objects evidence.storagePath = some body)
    (hd : w.documentsOf evidence body c.now = .ok documents) :
    w.drawn c s = documents.length + documents.length + 1 := by
  have hr : w.read? c s = some documents := by
    rw [read?, he, Option.bind_eq_bind, Option.bind_some, hb, Option.bind_eq_bind, Option.bind_some,
      hd]
    rfl
  rw [drawn, hr]
  rfl

end Drawn

section Program

variable (c n) in
-- Steps of the other calls, and steps of this one.
abbrev Others (e : RawEvidenceId) : NormalizerStore → NormalizerStore → Prop :=
  NormalizerStore.Extends e fun id => ∀ k < n, id ≠ c.ids k

variable (c n) in
abbrev Own (e : RawEvidenceId) : NormalizerStore → NormalizerStore → Prop :=
  NormalizerStore.Extends e fun id => ∃ k < n, id = c.ids k

-- The outcome names the documents of the claim.
def Reports (e : RawEvidenceId) (outcome : NormalizeOutcome) (s : NormalizerStore) : Prop :=
  ∀ ids, outcome = .created ids ∨ outcome = .alreadyDone ids →
    ∃ claim ∈ s.provenance, claim.normalizedOf = some e ∧ documentIdsFrom claim = ids

-- What a call relies on before its transaction.
structure Ready (w : Normalizer) (c : Call) (n : Nat) (e : RawEvidenceId) (s : NormalizerStore) :
    Prop where
  settled     : s.Settled e
  fresh       : Fresh c n s
  drawn       : w.drawn c s ≤ n
  collections : (s.collectionsOf e).length ≤ 100

theorem Ready.others (h : Ready w c n e s) (hs : Others c n e s s') : Ready w c n e s' where
  settled             := hs.settled h.settled
  fresh.distinct      := h.fresh.distinct
  fresh.unused k hk hu := (hs.used _ hu).elim (h.fresh.unused k hk) fun hn => hn k hk rfl
  fresh.valid         := h.fresh.valid
  drawn               := drawn_congr hs.inputs ▸ h.drawn
  collections         := hs.inputs.collectionsOf_eq ▸ h.collections

theorem Others.refl (s : NormalizerStore) : Others c n e s s :=
  NormalizerStore.Extends.refl s

theorem Own.refl (s : NormalizerStore) : Own c n e s s :=
  NormalizerStore.Extends.refl s

theorem respects_read {α : Type} {a : Access} {f : NormalizerStore → α}
    {Q : α → NormalizerStore → Prop}
    (h : ∀ s' s'', Others c n e s s' → Others c n e s' s'' → Q (f s') s'') :
    (c.read a f).Respects (Others c n e) (Own c n e) Q s := by
  unfold Call.read
  split_ifs
  case pos => exact Resumption.respects_read (fun s' _ => Own.refl s') h
  case neg => trivial

-- `K` is something that the others do not change.
theorem respects_existingClaim {a : Access} (K : NormalizerStore → Prop)
    (he : c.rawEvidenceId = e) (hk : ∀ {s s'}, Others c n e s s' → K s → K s') (h : K s) :
    (existingClaim c a).Respects (Others c n e) (Own c n e) (fun r s => K s ∧
      ∀ done, r = some done → done ∈ s.provenance ∧ done.normalizedOf = some e) s := by
  refine respects_read fun s' s'' hs hs' => ⟨hk hs' <| hk hs h, fun done hd => ?_⟩
  have ⟨hm, hi⟩ := mem_listProvenanceByRawEvidence.mp <| List.mem_of_find?_eq_some hd
  have ha : done.action = actionNormalized := by simpa using List.find?_some hd
  have hn : done.normalizedOf = some e := by simp [Provenance.normalizedOf, ha, hi, he]
  exact ⟨hs'.claims done hm hn, hn⟩

theorem respects_alreadyDone {done : Provenance} (hm : done ∈ s.provenance)
    (hn : done.normalizedOf = some e) :
    (pure (.alreadyDone (documentIdsFrom done)) : M NormalizeOutcome).Respects
      (Others c n e) (Own c n e) (Reports e) s := by
  refine respects_pure fun s' hs ids hi => ⟨done, hs.claims done hm hn, hn, ?_⟩
  obtain hi | hi := hi <;> cases hi
  rfl

variable (hr : Ready w c n evidence.id s) (hd : Numbered c documents)
variable (hn : documents.length + documents.length < n)
include hr hd hn

theorem respects_attempt :
    (attempt (w.writeDocuments c evidence documents) : M (Except StorageError Unit)).Respects
      (Others c n evidence.id) (Own c n evidence.id) (fun r s => r = .ok () →
        ∃ claim ∈ s.provenance, claim.normalizedOf = some evidence.id ∧
          documentIdsFrom claim = documents.map (·.id)) s := by
  refine Resumption.respects_attempt (fun s' t hs ht => ?_) fun s' e hs he => ⟨Own.refl s', nofun⟩
  have hr := hr.others hs
  have hc := committed hr.fresh hn hd ht
  have hb := hc.claimedBy hr.settled hr.collections hr.fresh hn hd
  refine ⟨hc.extends hr.settled hr.collections hr.fresh hn hd, fun t' ht _ => ?_⟩
  exact ⟨_, ht.claims _ hb.stored hb.claims, hb.claims,
    documentIdsFrom_claimOf_numbered hr.fresh hn hd⟩

theorem respects_transaction :
    (c.transaction (w.writeDocuments c evidence documents)).Respects
      (Others c n evidence.id) (Own c n evidence.id) (fun r s => r = .ok () →
        ∃ claim ∈ s.provenance, claim.normalizedOf = some evidence.id ∧
          documentIdsFrom claim = documents.map (·.id)) s := by
  unfold Call.transaction
  split
  case h_1 => exact respects_attempt hr hd hn
  case h_2 => trivial
  case h_3 => exact (respects_attempt hr hd hn).bind Others.refl fun _ _ _ => trivial

theorem respects_persistDocuments (he : c.rawEvidenceId = evidence.id) :
    (w.persistDocuments c evidence documents).Respects (Others c n evidence.id)
      (Own c n evidence.id) (Reports evidence.id) s := by
  refine (respects_transaction hr hd hn).bind Others.refl fun r s hs => ?_
  split
  case h_1 =>
    have ⟨claim, hm, hn, hi⟩ := hs rfl
    refine respects_pure fun s' hs' ids h => ⟨claim, hs'.claims claim hm hn, hn, ?_⟩
    obtain h | h := h <;> cases h
    exact hi
  case h_2 =>
    have hb : (c.read .rollback fun _ => ()).Respects (Others c n evidence.id)
        (Own c n evidence.id) (fun _ _ => True) s := respects_read fun _ _ _ _ => trivial
    refine hb.bind Others.refl fun _ s _ => ?_
    have hc := @respects_existingClaim c s evidence.id n .listAgain (fun _ => True) he
      (fun _ => id) trivial
    refine hc.bind Others.refl fun r s hs => ?_
    split
    case h_1 done =>
      have ⟨hm, hn⟩ := hs.right done rfl
      exact respects_alreadyDone hm hn
    case h_2 => trivial
  case h_3 => trivial

end Program

theorem respects_normalizeRaw (hr : Ready w c n e s) (he : c.rawEvidenceId = e) :
    (w.normalizeRaw c).Respects (Others c n e) (Own c n e) (Reports e) s := by
  refine (respects_existingClaim (Ready w c n e) he (fun hs hr => hr.others hs) hr).bind Others.refl
    fun r s hs => ?_
  have hr := hs.left
  split
  case h_1 done =>
    have ⟨hm, hn⟩ := hs.right done rfl
    exact respects_alreadyDone hm hn
  case h_2 =>
    have hg : (c.read .getRawEvidence (·.getRawEvidence c.rawEvidenceId)).Respects (Others c n e)
        (Own c n e) (fun r s => Ready w c n e s ∧ ∀ evidence, r = some evidence →
          s.getRawEvidence c.rawEvidenceId = some evidence) s := by
      refine respects_read fun s' s'' hs hs' => ⟨(hr.others hs).others hs', fun evidence h => ?_⟩
      rw [← h, getRawEvidence, getRawEvidence, hs'.inputs.rawEvidence]
    refine hg.bind Others.refl fun r s hs => ?_
    split
    case h_1 => trivial
    case h_2 evidence =>
      have hget := hs.right evidence rfl
      have hi : evidence.id = e := he ▸ Table.get?_key hget
      subst hi
      have ho : (c.read .getObject (·.objects evidence.storagePath)).Respects
          (Others c n evidence.id) (Own c n evidence.id) (fun r s => Ready w c n evidence.id s ∧
            s.getRawEvidence c.rawEvidenceId = some evidence ∧ s.objects evidence.storagePath = r)
          s := by
        refine respects_read fun s' s'' h h' => ⟨(hs.left.others h).others h', ?_, ?_⟩
        case refine_1 =>
          rw [getRawEvidence, h'.inputs.rawEvidence, h.inputs.rawEvidence]
          exact hget
        case refine_2 => rw [h'.inputs.objects]
      refine ho.bind Others.refl fun r s hs => ?_
      obtain ⟨hr, hget, hb⟩ := hs
      split
      case h_1 => trivial
      case h_2 body =>
        split
        case h_1 outcome h =>
          exact respects_pure fun _ _ ids hi => (not_reported h ids hi).elim
        case h_2 documents h =>
          have hn : documents.length + documents.length < n :=
            Nat.lt_of_succ_le <| (drawn_eq hget hb h).symm.le.trans hr.drawn
          refine respects_persistDocuments hr (numbered_zipIdx <| id_of_documentsOf h) ?_ he
          simpa using hn

-- Calls for one evidence. No identifier is made up twice, and each of them is a UUID.
structure Concurrent {ι : Type} (w : Normalizer) (calls : ι → Call) (e : RawEvidenceId)
    (s : NormalizerStore) : Prop where
  evidence    : ∀ i, (calls i).rawEvidenceId = e
  distinct    : ∀ i j, ∀ k < w.drawn (calls i) s, ∀ l < w.drawn (calls j) s,
    (calls i).ids k = (calls j).ids l → i = j ∧ k = l
  unused      : ∀ i, ∀ k < w.drawn (calls i) s, ¬s.Used ((calls i).ids k)
  valid       : ∀ i, ∀ k < w.drawn (calls i) s, (calls i).ids k < 2 ^ 128
  collections : (s.collectionsOf e).length ≤ 100

-- What is stored for the evidence, and what the calls which have ended say about it.
structure OneDocumentSet {ι : Type} (e : RawEvidenceId)
    (p : Pool ι NormalizerStore NormalizerError NormalizeOutcome) : Prop where
  stored   :
    (∀ d, ¬p.shared.Derived e d) ∧ (∀ claim ∈ p.shared.provenance, claim.normalizedOf ≠ some e) ∨
    ∃! claim, claim ∈ p.shared.provenance ∧ claim.normalizedOf = some e ∧
      (∀ d, p.shared.Derived e d ↔ d ∈ documentIdsFrom claim) ∧
      ∀ d ∈ documentIdsFrom claim, ∀ id ∈ p.shared.collectionsOf e,
        (id, d) ∈ p.shared.collectionObjects
  reported : ∀ i ids,
    p.programs i = .done (.created ids) ∨ p.programs i = .done (.alreadyDone ids) →
      ∃ claim ∈ p.shared.provenance, claim.normalizedOf = some e ∧ documentIdsFrom claim = ids

theorem normalizeRaw_oneDocumentSet {ι : Type} [DecidableEq ι] (w : Normalizer) {calls : ι → Call}
    {e : RawEvidenceId} {s : NormalizerStore} (hc : Concurrent w calls e s) (hs : s.Untouched e)
    (schedule : List ι) :
    OneDocumentSet e (Pool.run ⟨s, fun i => w.normalizeRaw (calls i)⟩ schedule) := by
  let n (i : ι) := w.drawn (calls i) s
  have hr (i : ι) : Ready w (calls i) (n i) e s := {
    settled     := .inl hs
    fresh       :=
      ⟨fun k hk l hl h => (hc.distinct i i k hk l hl h).right, hc.unused i, hc.valid i⟩
    drawn       := le_rfl
    collections := hc.collections }
  have hj {i j : ι} {s s' : NormalizerStore} (hij : i ≠ j) (h : Own (calls i) (n i) e s s') :
      Others (calls j) (n j) e s s' := by
    refine h.mono fun _ hi l hl he => ?_
    obtain ⟨k, hk, hi⟩ := hi
    exact hij (hc.distinct i j k hk l hl <| hi.symm.trans he).left
  have ⟨hp, hq⟩ := @Pool.respects_run _ _ _ _ _ ⟨s, fun i => w.normalizeRaw (calls i)⟩
    (fun i => Others (calls i) (n i) e) (fun i => Own (calls i) (n i) e) (fun _ => Reports e)
    (·.Settled e) (fun _ => Others.refl) (fun h h' => h.trans h') (fun _ => Own.refl) hj
    (fun h => h.settled) (.inl hs) (fun i => respects_normalizeRaw (hr i) (hc.evidence i)) schedule
  constructor
  case stored =>
    obtain hu | ⟨claim, hb⟩ := hp
    · exact .inl ⟨fun d ⟨_, p, hp, ha, he, _⟩ => hu.underived p hp ha he, hu.unclaimed⟩
    · exact .inr ⟨claim, ⟨hb.stored, hb.claims, hb.derived, hb.linked⟩,
        fun claim' h => hb.unique h.left h.right.left⟩
  case reported =>
    intro i ids hi
    have hi' := hq i
    obtain hi | hi := hi
    all_goals
      rw [hi] at hi'
      exact hi' _ (Others.refl _) ids (by simp)

namespace Sample

-- Each body is a feed with one item.
def normalizer : Normalizer where
  processorVersion  := "0.1.0"
  classifyContent   := fun _ _ _ => .rssOrAtom
  bodyLooksLikeFeed := fun _ => true
  bodyLooksLikeHtml := fun _ => false
  parseFeed         := fun _ => .ok [⟨none, none, some "lockbit", none, none, none, .object []⟩]
  parseHtml         := fun _ => .ok []
  importSpec        := fun _ => none
  parseImport       := fun _ _ => none
  contentHash       := fun _ _ _ => ""

def store : NormalizerStore where
  rawEvidence            := (∅ : Table _).put ⟨7, "https://example.org", 0, none, none, "p", .null⟩
  rawEvidenceCollections := [(7, 3)]
  objects                := fun _ => some []

-- The first call dies in its transaction, whose effect stays.
def calls (b : Bool) : Call where
  rawEvidenceId := 7
  now           := 0
  ids k         := 2 * k + b.toNat
  reply a       := if b = false ∧ a = .transaction then .lost else .answered

theorem drawn_calls (b : Bool) : normalizer.drawn (calls b) store = 3 := by
  cases b <;> rfl

theorem concurrent_calls : Concurrent normalizer calls 7 store where
  evidence _              := rfl
  distinct i j k hk l hl h := by
    have h : 2 * k + i.toNat = 2 * l + j.toNat := h
    cases i <;> cases j <;> simp only [Bool.toNat_true, Bool.toNat_false] at h
    case true.true | false.false => exact ⟨rfl, by omega⟩
    all_goals exact absurd h (by omega)
  unused i k _            := by simp [store, NormalizerStore.Used]
  valid i k hk            := by
    rw [drawn_calls] at hk
    have hi := i.toNat_le
    change 2 * k + i.toNat < _
    omega
  collections             := by decide

end Sample

theorem normalizeRaw_oneDocumentSet_two :
    OneDocumentSet 7
      (Pool.run ⟨Sample.store, fun b => Sample.normalizer.normalizeRaw (Sample.calls b)⟩
        [false, true, true, false, true, false, false, true, true, true]) :=
  normalizeRaw_oneDocumentSet Sample.normalizer Sample.concurrent_calls
    ⟨by simp [Sample.store], by simp [Sample.store]⟩ _

end Normalizer
