import OsintCore.Extraction.Theorems.Steps

open Resumption (Ensures ensures_bind ensures_foldlM ensures_pure)

namespace EntityWorker

variable {w : EntityWorker} {σ τ τ' : Store} {ctx : Context} {e : Edge}

-- What the store looks like after the given edges have been written one after another.
structure Wrote (w : EntityWorker) (σ τ : Store) (written : List Edge) : Prop where
  others : ∀ i, (∀ d ∈ written, w.edgeId d ≠ i) → τ.relationships.get? i = σ.relationships.get? i
  edges  : ∀ d ∈ written, ∃ d' ∈ written, w.edgeId d' = w.edgeId d ∧
    ∃ r, τ.relationships.get? (w.edgeId d) = some r ∧ r.naturalKey = d'.naturalKey
  raw    : τ.rawEvidence = σ.rawEvidence
  free   : ∀ earlier e, earlier ++ [e] <+: written → ¬w.Conflicts σ earlier e

theorem Wrote.nil : Wrote w σ σ [] :=
  ⟨fun _ _ => rfl, by simp, rfl, by simp⟩

theorem Wrote.frame {written : List Edge} (h : Wrote w σ τ written)
    (hr : τ'.relationships = τ.relationships) (he : τ'.rawEvidence = τ.rawEvidence) :
    Wrote w σ τ' written :=
  ⟨hr ▸ h.others, hr ▸ h.edges, he.trans h.raw, h.free⟩

theorem Wrote.append {written : List Edge} {r : Relationship} (h : Wrote w σ τ written)
    (hc : ¬w.Conflicts σ written e) (hi : r.id = w.edgeId e) (hk : r.naturalKey = e.naturalKey)
    (hr : τ'.relationships = τ.relationships.put r) (he : τ'.rawEvidence = τ.rawEvidence) :
    Wrote w σ τ' (written ++ [e]) where
  others i hw := by
    have hn : r.id ≠ i := hi ▸ hw e (by simp)
    simp [hr, hn, h.others i fun d hd => hw d (by simp [hd])]
  edges d hd := by
    by_cases he : w.edgeId d = w.edgeId e
    case pos => exact ⟨e, by simp, he.symm, r, by simp [hr, hi, he], hk⟩
    case neg =>
      have hd : d ∈ written := by
        rcases List.mem_append.mp hd with hd | hd
        · exact hd
        · exact absurd (by rw [List.mem_singleton.mp hd]) he
      have ⟨d', hd', hi', r', hg, hk⟩ := h.edges d hd
      refine ⟨d', by simp [hd'], hi', r', ?_, hk⟩
      simp [hr, hi, hg, Ne.symm he]
  raw := he.trans h.raw
  free earlier d hp := by
    obtain he | hp := List.prefix_concat_iff.mp hp
    · have ⟨he, hd⟩ := List.append_inj' he rfl
      rw [he, List.singleton_inj.mp hd]
      exact hc
    · exact h.free earlier d hp

theorem edgeId_congr {d e : Edge} (h : d.naturalKey = e.naturalKey) : w.edgeId d = w.edgeId e := by
  simp only [Edge.naturalKey, Prod.mk.injEq] at h
  simp [edgeId, h]

-- Whether an edge is refused can be told from the store before the first one.
theorem Wrote.conflicts {written : List Edge} (h : Wrote w σ τ written) :
    w.Conflicts τ [] e ↔ w.Conflicts σ written e := by
  constructor
  case mp =>
    intro ⟨r, hr, hk, hi, _⟩
    have hd : ∀ d ∈ written, r.id ≠ w.edgeId d := by
      intro d hd he
      have ⟨d', _, hd', r', hg, hk'⟩ := h.edges d hd
      have : r' = r := Table.eq_of_key_eq (Table.get?_mem hg) hr <| by
        simp [he, ← Table.get?_key hg]
      exact hi <| by rw [he, ← hd', edgeId_congr (hk'.symm.trans <| this ▸ hk)]
    have hg := h.others r.id fun d hd' => Ne.symm <| hd d hd'
    rw [show τ.relationships.get? r.id = some r from Table.mem_iff_get?.mp hr] at hg
    exact ⟨r, Table.get?_mem hg.symm, hk, hi, hd⟩
  case mpr =>
    intro ⟨r, hr, hk, hi, hd⟩
    have hg := h.others r.id fun d hd' => Ne.symm <| hd d hd'
    rw [show σ.relationships.get? r.id = some r from Table.mem_iff_get?.mp hr] at hg
    exact ⟨r, Table.get?_mem hg, hk, hi, by simp⟩

theorem Wrote.missing {written : List Edge} (h : Wrote w σ τ written) :
    EvidenceMissing τ ctx ↔ EvidenceMissing σ ctx := by
  simp [EvidenceMissing, h.raw]

-- The entity and the extraction for a mention have been written.
structure Named (w : EntityWorker) (ctx : Context) (τ τ' : Store) (e : Edge) : Prop where
  identifiers : ∀ i ∈ τ'.entityIdentifiers, i ∈ τ.entityIdentifiers ∨ i.entityId = e.target
  frame       : τ'.toTables = { τ.toTables with
    entities          := τ'.entities
    entityIdentifiers := τ'.entityIdentifiers
    entityExtractions := τ.entityExtractions.put (w.extractionOf ctx e.target e.item) }

theorem Named.relationships (h : Named w ctx τ τ' e) : τ'.relationships = τ.relationships := by
  have := congrArg Tables.relationships h.frame
  exact this

theorem Named.rawEvidence (h : Named w ctx τ τ' e) : τ'.rawEvidence = τ.rawEvidence := by
  have := congrArg Tables.rawEvidence h.frame
  exact this

-- The edge could not be written.
inductive Failed (w : EntityWorker) (ctx : Context) (τ τ' : Store) (e : Edge) : Prop
  | conflict (conflicts : w.Conflicts τ [] e) (eq : τ' = τ)
  | missing (missing : EvidenceMissing τ ctx) (free : ¬w.Conflicts τ [] e) (r : Relationship)
    (id : r.id = w.edgeId e) (naturalKey : r.naturalKey = e.naturalKey)
    (evidenceCount : r.evidenceCount = 0)
    (tables : τ'.toTables = { τ.toTables with relationships := τ.relationships.put r })

theorem Failed.fails (h : Failed w ctx τ τ' e) : w.Conflicts τ [] e ∨ EvidenceMissing τ ctx := by
  cases h
  case conflict h _ => exact .inl h
  case missing h _ _ _ _ _ _ => exact .inr h

section Loops

variable {J : List Edge → List Edge → Store → Prop} {all : List Edge}

-- The state of the loops: the edges which are still to be written follow those which have been.
structure Looping (w : EntityWorker) (ctx : Context) (σ : Store)
    (J : List Edge → List Edge → Store → Prop) (all named written rest : List Edge) (τ : Store) :
    Prop where
  wrote   : Wrote w σ τ written
  split   : all = written ++ rest
  reached : w.reached σ ctx [] all = written ++ w.reached σ ctx written rest
  holds   : J named written τ

-- The first loop names the edge which it is about to write, the second one only writes.
def Stage (mentions named written : List Edge) (e : Edge) : Prop :=
  named = written ++ [e] ∧ named <+: mentions ∨ named = mentions ∧ mentions <+: written

-- The edge which fails is the last one which is reached.
def Stopped (w : EntityWorker) (ctx : Context) (σ : Store)
    (J : List Edge → List Edge → Store → Prop) (all mentions : List Edge) (τ' : Store) : Prop :=
  ∃ named written e τ, Wrote w σ τ written ∧ J named written τ ∧
    w.reached σ ctx [] all = written ++ [e] ∧ Stage mentions named written e ∧ Failed w ctx τ τ' e

theorem Looping.writeEdge {named written rest mentions : List Edge}
    (hJ : ∀ e ∈ w.reached σ ctx [] all, ∀ named written r τ τ', J named written τ →
      EdgeWritten w ctx τ τ' e r → J named (written ++ [e]) τ')
    (hn : Stage mentions named written e)
    (h : Looping w ctx σ J all named written (e :: rest) τ) :
    (w.writeEdge ctx e).Ensures τ
      (fun id τ' => id = w.edgeId e ∧ (∃ r, EdgeWritten w ctx τ τ' e r) ∧
        Looping w ctx σ J all named (written ++ [e]) rest τ')
      fun _ τ' => Stopped w ctx σ J all mentions τ' := by
  refine writeEdge_ensures.mono (fun id τ' ⟨hid, hc, hm, r, hw⟩ => ?_) fun _ τ' he => ?_
  case refine_1 =>
    rw [h.wrote.conflicts] at hc
    rw [h.wrote.missing] at hm
    have hr : w.reached σ ctx [] all =
        (written ++ [e]) ++ w.reached σ ctx (written ++ [e]) rest := by
      simp [h.reached, EntityWorker.reached, hc, hm]
    exact ⟨hid, ⟨r, hw⟩, h.wrote.append hc hw.id hw.naturalKey (by simp [hw.tables])
      (by simp [hw.tables]), by simp [h.split], hr,
      hJ e (by simp [hr]) _ _ r _ _ h.holds hw⟩
  case refine_2 =>
    have hf : Failed w ctx τ τ' e := by
      obtain ⟨hc, he⟩ | ⟨hc, hm, r, hi, hk, h0, ht⟩ := he
      · exact .conflict hc he
      · exact .missing hm hc r hi hk h0 ht
    refine ⟨named, written, e, τ, h.wrote, h.holds, ?_, hn, hf⟩
    have := hf.fails
    rw [h.wrote.conflicts, h.wrote.missing] at this
    simp [h.reached, EntityWorker.reached, this]

-- What is preserved by each step of the loops.
structure Preserved (w : EntityWorker) (ctx : Context) (reached : List Edge)
    (J : List Edge → List Edge → Store → Prop) : Prop where
  named   : ∀ named written e τ τ', J named written τ → Named w ctx τ τ' e →
    J (named ++ [e]) written τ'
  written : ∀ e ∈ reached, ∀ named written r τ τ', J named written τ →
    EdgeWritten w ctx τ τ' e r → J named (written ++ [e]) τ'

theorem mention_ensures {n : Names} {p : Progress} {item : Extracted} {written rest : List Edge}
    {mentions : List Edge} (hJ : Preserved w ctx (w.reached σ ctx [] all) J) (hp : Follows n p τ)
    (hm : written ++ [mentionEdge ctx item (n.idOf w item.naturalKey)] <+: mentions)
    (h : Looping w ctx σ J all written written
      (mentionEdge ctx item (n.idOf w item.naturalKey) :: rest) τ) :
    (w.mention ctx p item).Ensures τ
      (fun p' τ' => Follows (n.after w item.naturalKey) p' τ' ∧
        Looping w ctx σ J all (written ++ [mentionEdge ctx item (n.idOf w item.naturalKey)])
          (written ++ [mentionEdge ctx item (n.idOf w item.naturalKey)]) rest τ')
      fun _ τ' => Stopped w ctx σ J all mentions τ' := by
  unfold mention
  rw [ensures_bind]
  refine resolveEntity_ensures hp |>.mono (fun (id, p₁) τ₁ ⟨hid, hp₁, hs, hi, ht⟩ => ?_)
    fun _ _ h => h.elim
  rw [ensures_bind]
  refine writeExtraction_ensures hs |>.mono (fun _ τ₂ h₂ => ?_) fun _ _ h => h.elim
  have hn : Named w ctx τ τ₂ (mentionEdge ctx item id) := by
    refine ⟨by simpa [h₂, mentionEdge] using hi, ?_⟩
    rw [h₂, ht]
    rfl
  rw [← hid] at h hm ⊢
  have h₂' : Looping w ctx σ J all (written ++ [mentionEdge ctx item id]) written
      (mentionEdge ctx item id :: rest) τ₂ :=
    ⟨h.wrote.frame hn.relationships hn.rawEvidence, h.split, h.reached,
      hJ.named _ _ _ _ _ h.holds hn⟩
  rw [ensures_bind]
  refine h₂'.writeEdge hJ.written (.inl ⟨rfl, hm⟩) |>.mono (fun id' τ₃ ⟨_, ⟨r, hw⟩, h₃⟩ => ?_) fun _ _ h => h
  rw [ensures_pure]
  refine ⟨hp₁.frame ?_ rfl, h₃⟩
  simp [hw.tables, h₂]

theorem mentions_ensures {items : List Extracted} {rest : List Edge}
    (hJ : Preserved w ctx (w.reached σ ctx [] all) J)
    (h : Looping w ctx σ J all [] [] (w.mentionEdges ctx (.ofStore σ) items ++ rest) σ) :
    (items.foldlM (w.mention ctx) {}).Ensures σ
      (fun p τ => Follows (w.namesAfter σ items) p τ ∧
        Looping w ctx σ J all (w.mentionEdges ctx (.ofStore σ) items)
          (w.mentionEdges ctx (.ofStore σ) items) rest τ)
      fun _ τ => Stopped w ctx σ J all (w.mentionEdges ctx (.ofStore σ) items) τ := by
  refine (ensures_foldlM (I := fun l p τ => ∃ n written, Follows n p τ ∧
    l.foldl (fun n item => n.after w item.naturalKey) n = w.namesAfter σ items ∧
    written ++ w.mentionEdges ctx n l = w.mentionEdges ctx (.ofStore σ) items ∧
    Looping w ctx σ J all written written (w.mentionEdges ctx n l ++ rest) τ)
    ⟨_, _, .ofStore, rfl, rfl, h⟩ ?_).mono ?_ fun _ _ h => h
  case refine_1 =>
    intro item l p τ ⟨n, written, hp, hn, hm, h⟩
    rw [mentionEdges, List.append_cons] at hm
    refine (mention_ensures hJ hp ⟨_, hm⟩ h).mono (fun p' τ' ⟨hp', h'⟩ => ?_) fun _ _ h => h
    exact ⟨_, _, hp', hn, hm, h'⟩
  case refine_2 =>
    intro p τ ⟨n, written, hp, hn, hm, h⟩
    obtain rfl : written = _ := by simpa [mentionEdges] using hm
    exact ⟨hn ▸ hp, h⟩

theorem derives_ensures {items : List Extracted} {mentions : List Edge} {p : Progress}
    {ids : List (NaturalKey × EntityId)} (hJ : Preserved w ctx (w.reached σ ctx [] all) J)
    (hp : p.entityIds = ids)
    (h : Looping w ctx σ J all mentions mentions (items.filterMap (derivedEdge ids)) τ) :
    (items.foldlM (w.derive ctx) p).Ensures τ
      (fun _ τ => ∃ written, Looping w ctx σ J all mentions written [] τ)
      fun _ τ => Stopped w ctx σ J all mentions τ := by
  refine (ensures_foldlM (I := fun l p τ => ∃ written, p.entityIds = ids ∧ mentions <+: written ∧
    Looping w ctx σ J all mentions written (l.filterMap (derivedEdge ids)) τ)
    ⟨_, hp, List.prefix_refl _, h⟩ ?_).mono (fun p τ h => h.imp fun _ h => h.right.right)
    fun _ _ h => h
  rintro item l p τ ⟨written, hp, hm, h⟩
  unfold derive
  rw [hp]
  cases hd : derivedEdge ids item
  case none => exact ⟨written, hp, hm, by simpa [hd] using h⟩
  case some edge =>
    simp only [List.filterMap_cons, hd] at h
    simp only [ensures_bind, ensures_pure]
    exact (h.writeEdge hJ.written (.inr ⟨rfl, hm⟩)).mono
      (by rintro _ τ' ⟨_, _, h'⟩; exact ⟨_, hp, hm.trans (List.prefix_append ..), h'⟩)
      fun _ _ h => h

end Loops

section Extract

variable {J : List Edge → List Edge → Store → Prop}

-- The items which the extractors find in the document.
def itemsOf (w : EntityWorker) (document : Document) : List Extracted :=
  w.extractAll (extractionInput document w.bounds) w.bounds |>.items

-- The edges which the document stands for, and the first of them, which mention the entities.
def edgesOf (w : EntityWorker) (σ : Store) (ctx : Context) : List Edge :=
  w.edges σ ctx (w.itemsOf ctx.document)

def mentionsOf (w : EntityWorker) (σ : Store) (ctx : Context) : List Edge :=
  w.mentionEdges ctx (.ofStore σ) (w.itemsOf ctx.document)

-- Either all edges are written, and then possibly the claim, or the extraction stops on the way.
inductive Ended (w : EntityWorker) (ctx : Context) (σ : Store)
    (J : List Edge → List Edge → Store → Prop) (τ' : Store) : Prop
  | finished (τ : Store) (wrote : Wrote w σ τ (w.edgesOf σ ctx))
    (holds : J (w.mentionsOf σ ctx) (w.edgesOf σ ctx) τ)
    (reached : w.reached σ ctx [] (w.edgesOf σ ctx) = w.edgesOf σ ctx)
    (tables : τ'.toTables = { τ.toTables with provenance := τ'.provenance })
  | stopped (stopped : Stopped w ctx σ J (w.edgesOf σ ctx) (w.mentionsOf σ ctx) τ')

theorem extract_ended (claimId : ProvenanceId)
    (hJ : Preserved w ctx (w.reached σ ctx [] (w.edgesOf σ ctx)) J) (h₀ : J [] [] σ) :
    Ended w ctx σ J ((w.extract ctx claimId).exec σ) := by
  apply Ensures.exec
  unfold extract
  rw [ensures_bind]
  refine (mentions_ensures hJ ⟨.nil, rfl, rfl, h₀⟩).mono (fun p τ ⟨hp, h⟩ => ?_)
    fun _ _ h => .stopped h
  rw [ensures_bind]
  refine (derives_ensures hJ hp.entityIds h).mono (fun p' τ' ⟨written, h'⟩ => ?_)
    fun _ _ h => .stopped h
  have hw : written = w.edgesOf σ ctx := by simpa using h'.split.symm
  subst hw
  have hr : w.reached σ ctx [] (w.edgesOf σ ctx) = w.edgesOf σ ctx := by
    simpa [EntityWorker.reached] using h'.reached
  have hf {τ₁ : Store} (ht : τ₁.toTables = { τ'.toTables with provenance := τ₁.provenance }) :
      Ended w ctx σ J τ₁ := .finished τ' h'.wrote h'.holds hr ht
  rw [ensures_bind, Resumption.ensures_attempt]
  constructor
  case left =>
    intro τ₁ h₁
    have ⟨_, _, _, h₁⟩ := Store.putProvenance_eq_ok.mp h₁
    exact hf <| by simp [h₁]
  case right =>
    intro err he
    cases err <;> exact hf rfl

end Extract

section Document

-- The document is not processed: it has been already, it is not there, or it is a duplicate.
def Skipped (σ : Store) (documentId : DocumentId) : Prop :=
  (∃ p ∈ σ.provenance.rows, p.subjectId = documentId ∧ p.action = actionEntityExtracted) ∨
    ∀ d, σ.getDocument documentId = some d → d.duplicateOf.isSome

-- What is fixed while the document is processed.
def contextOf (w : EntityWorker) (σ : Store) (document : Document) (now : Timestamp) : Context where
  document      := document
  rawEvidenceId := w.rawEvidenceIdOf document
  sourceId      := w.rawEvidenceIdOf document >>= σ.getRawEvidence |>.map RawEvidence.sourceId
  now           := now

theorem extractDocument_exec (documentId : DocumentId) (now : Timestamp) (claimId : ProvenanceId) :
    Skipped σ documentId ∧
      (w.extractDocument documentId now claimId).exec σ = σ ∨
    ¬Skipped σ documentId ∧ ∃ document, σ.getDocument documentId = some document ∧
      (w.extractDocument documentId now claimId).exec σ =
        (w.extract (w.contextOf σ document now) claimId).exec σ := by
  have hc : (σ.listProvenanceBySubject documentId).any (·.action = actionEntityExtracted) = true ↔
      ∃ p ∈ σ.provenance.rows, p.subjectId = documentId ∧ p.action = actionEntityExtracted := by
    simp [Store.listProvenanceBySubject, and_assoc]
  unfold extractDocument
  simp only [Resumption.exec, Resumption.run_bind, alreadyClaimed, Resumption.run_read]
  split_ifs with h
  case pos => exact .inl ⟨.inl <| hc.mp h, rfl⟩
  case neg =>
    simp only [Resumption.run_bind, Resumption.run_read]
    cases hd : σ.getDocument documentId
    case none => exact .inl ⟨.inr <| by simp [hd], rfl⟩
    case some document =>
      simp only
      split_ifs with hs
      case pos => exact .inl ⟨.inr <| by simp [hd, hs], rfl⟩
      case neg =>
        refine .inr ⟨?_, document, rfl, rfl⟩
        rintro (h' | h')
        · exact h <| hc.mpr h'
        · exact hs <| h' document hd

end Document

end EntityWorker
