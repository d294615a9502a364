import OsintCore.Extraction.Theorems.Unreferenced

namespace EntityWorker

variable {w : EntityWorker} {σ τ τ' : Store} {ctx : Context} {e : Edge} {i j : RelationshipId}

-- `evidence_count` is the number of the rows. It may also have stopped at the limit.
def Counted (n : Nat) (c : Int32) : Prop :=
  c.toInt = n ∨ 100 < n ∧ c.toInt = 100

instance {n : Nat} {c : Int32} : Decidable (Counted n c) :=
  inferInstanceAs (Decidable (_ ∨ _))

def EvidenceCounted (σ : Store) : Prop :=
  ∀ r ∈ σ.relationships.rows, Counted (evidenceRows σ r.id) r.evidenceCount

instance {σ : Store} : Decidable (EvidenceCounted σ) :=
  inferInstanceAs (Decidable (∀ r ∈ σ.relationships.rows, _))

section Rows

-- The ids of the evidence for a relationship.
def evidenceIds (σ : Store) (i : RelationshipId) : List RelationshipEvidenceId :=
  σ.relationshipEvidence.rows.filter (·.relationshipId = i) |>.map (·.id)

theorem length_evidenceIds : (evidenceIds σ i).length = evidenceRows σ i := by
  simp [evidenceIds, evidenceRows, List.countP_eq_length_filter]

theorem nodup_evidenceIds : (evidenceIds σ i).Nodup := by
  refine List.Nodup.map_on (fun x hx y hy h => ?_) (σ.relationshipEvidence.nodup.filter _)
  exact Table.eq_of_key_eq (List.mem_filter.mp hx).left (List.mem_filter.mp hy).left h

theorem mem_evidenceIds {k : RelationshipEvidenceId} : k ∈ evidenceIds σ i ↔
    ∃ x, σ.relationshipEvidence.get? k = some x ∧ x.relationshipId = i := by
  simp only [evidenceIds, List.mem_map, List.mem_filter, decide_eq_true_eq, Table.get?_eq_some]
  constructor
  · exact fun ⟨x, ⟨hm, hr⟩, hk⟩ => ⟨x, ⟨hm, hk⟩, hr⟩
  · exact fun ⟨x, ⟨hm, hk⟩, hr⟩ => ⟨x, ⟨hm, hr⟩, hk⟩

-- Relationships with the same evidence have equally many rows of it.
theorem length_eq_evidenceRows {l : List RelationshipEvidenceId} (hl : l.Nodup)
    (h : ∀ k, k ∈ evidenceIds τ i ↔ k ∈ l) : evidenceRows τ i = l.length := by
  rw [← length_evidenceIds]
  exact List.Perm.length_eq <| List.perm_ext_iff_of_nodup nodup_evidenceIds hl |>.mpr h

theorem evidenceRows_congr (h : ∀ k, k ∈ evidenceIds τ i ↔ k ∈ evidenceIds σ j) :
    evidenceRows τ i = evidenceRows σ j :=
  length_evidenceIds (σ := σ) ▸ length_eq_evidenceRows nodup_evidenceIds h

theorem counted_zero : Counted 0 0 :=
  .inl rfl

-- Below the limit the count is exact.
theorem Counted.toInt {n : Nat} {c : Int32} (h : Counted n c) (hn : n ≤ 100) : c.toInt = n :=
  h.resolve_right fun h => by omega

theorem counted_min (n : Nat) : Counted n (Int32.ofNat (min 100 n)) := by
  have : (Int32.ofNat (min 100 n)).toInt = min 100 n :=
    Int32.toInt_ofNat_of_lt (by omega)
  unfold Counted
  omega

end Rows

section Steps

def Edge.evidenceId (w : EntityWorker) (ctx : Context) (e : Edge) : RelationshipEvidenceId :=
  w.relEvidenceId (w.edgeId e) ctx.document.id e.item.textOffset

-- The evidence which an extraction rewrites is, so far, evidence for the same relationship. If its
-- raw evidence is missing, no relationship loses its count.
def KeepsCounts (w : EntityWorker) (σ : Store) (ctx : Context) : Prop :=
  (¬EvidenceMissing σ ctx → ∀ e ∈ w.reached σ ctx [] (w.edgesOf σ ctx), ∀ x ∈
    σ.relationshipEvidence.get? (e.evidenceId w ctx), x.relationshipId = w.edgeId e) ∧
  (EvidenceMissing σ ctx → ∀ e ∈ (w.edgesOf σ ctx).head?, ¬w.Conflicts σ [] e →
    evidenceRows σ (w.edgeId e) = 0)

structure Counting (w : EntityWorker) (ctx : Context) (σ : Store) (reached : List Edge)
    (named written : List Edge) (τ : Store) : Prop where
  counted : EvidenceCounted τ
  raw     : τ.rawEvidence = σ.rawEvidence
  own     : ¬EvidenceMissing σ ctx → ∀ e ∈ reached, ∀ x ∈
    τ.relationshipEvidence.get? (e.evidenceId w ctx), x.relationshipId = w.edgeId e
  start   : written = [] → τ.relationshipEvidence = σ.relationshipEvidence

theorem evidenceRows_eq (h : τ.relationshipEvidence = σ.relationshipEvidence) :
    evidenceRows τ i = evidenceRows σ i := by
  simp [evidenceRows, h]

-- Only the relationship which gets the evidence has other rows than before.
theorem EdgeWritten.evidenceRows {r : Relationship} (h : EdgeWritten w ctx τ τ' e r)
    (ho : ∀ x ∈ τ.relationshipEvidence.get? (e.evidenceId w ctx), x.relationshipId = w.edgeId e)
    (hi : i ≠ w.edgeId e) : evidenceRows τ' i = evidenceRows τ i := by
  refine evidenceRows_congr fun k => ?_
  simp only [mem_evidenceIds, h.tables, Table.get?_put, RelationshipEvidence.key_eq]
  split_ifs with hk
  case pos =>
    refine iff_of_false (fun ⟨x, hx, hr⟩ => ?_) fun ⟨x, hx, hr⟩ => ?_
    · exact hi <| hr.symm.trans <| by rw [← Option.some.inj hx]; rfl
    · exact hi <| hr.symm.trans <| ho x <| (congrArg τ.relationshipEvidence.get? hk).trans hx
  case neg => rfl

theorem Counting.preserved (hw : Function.Injective w.newV5) {reached : List Edge} :
    Preserved w ctx reached (Counting w ctx σ reached) where
  named named written e τ τ' h hn := by
    have he : τ'.relationshipEvidence = τ.relationshipEvidence := by
      have := congrArg Tables.relationshipEvidence hn.frame
      exact this
    refine ⟨fun r hr => ?_, hn.rawEvidence.trans h.raw, he ▸ h.own, fun hs => he.trans <| h.start hs⟩
    rw [evidenceRows_eq he]
    exact h.counted r (hn.relationships ▸ hr)
  written e hr named written r τ τ' h hwr := by
    have hm : ¬EvidenceMissing σ ctx := by
      simpa [EvidenceMissing, h.raw] using hwr.present
    have ho := h.own hm e hr
    refine ⟨fun s hs => ?_, by simp [hwr.tables, h.raw], fun _ d hd x hx => ?_, by simp⟩
    case refine_1 =>
      rw [hwr.tables] at hs
      obtain rfl | ⟨hs, hne⟩ := Table.mem_put.mp hs
      · rw [hwr.evidenceCount]
        exact counted_min _
      · rw [hwr.evidenceRows ho (hwr.id ▸ hne)]
        exact h.counted s hs
    case refine_2 =>
      simp only [hwr.tables, Table.get?_put, Option.mem_def] at hx
      split_ifs at hx with hk
      · have hk := hw hk
        simp only [V5Name.relationshipEvidence.injEq] at hk
        rw [← Option.some.inj hx]
        exact hk.left
      · exact h.own hm d hd x hx

theorem Ended.counted (hk : KeepsCounts w σ ctx)
    (h : Ended w ctx σ (Counting w ctx σ (w.reached σ ctx [] (w.edgesOf σ ctx))) τ') :
    EvidenceCounted τ' := by
  cases h
  case finished τ _ hc _ ht =>
    have hr := congrArg Tables.relationships ht
    have he := congrArg Tables.relationshipEvidence ht
    simp only at hr he
    intro r hm
    rw [evidenceRows_eq he]
    exact hc.counted r (hr ▸ hm)
  case stopped h =>
    obtain ⟨named, written, e, τ, hwr, hc, hr, _, hf⟩ := h
    cases hf
    case conflict he => exact he ▸ hc.counted
    case missing hm hcf r hi _ h0 ht =>
      have hm := hwr.missing.mp hm
      have hn : written = [] := by
        cases ha : w.edgesOf σ ctx
        case nil => simp [ha, reached] at hr
        case cons d l =>
          simp only [ha, reached, hm, or_true, if_true] at hr
          exact List.append_eq_singleton_iff.mp hr.symm |>.elim (·.left) (by simp)
      subst hn
      have hhead : e ∈ (w.edgesOf σ ctx).head? := by
        obtain ⟨l, hl⟩ := hr ▸ reached_prefix (w := w) (σ := σ) ctx (w.edgesOf σ ctx)
        simp [← hl]
      have hz := hk.right hm e hhead fun h => hcf <| hwr.conflicts.mpr h
      have hev : τ'.relationshipEvidence = σ.relationshipEvidence := by
        simp [ht, hc.start rfl]
      intro s hs
      rw [evidenceRows_eq hev]
      simp only [ht] at hs
      obtain rfl | ⟨hs, _⟩ := Table.mem_put.mp hs
      · rw [hi, hz, h0]
        exact counted_zero
      · rw [← evidenceRows_eq (hc.start rfl)]
        exact hc.counted s hs

theorem extractDocument_counted {documentId : DocumentId} {now : Timestamp} {claimId : ProvenanceId}
    (hw : Function.Injective w.newV5) (hc : EvidenceCounted σ)
    (hk : ¬Skipped σ documentId → ∀ document, σ.getDocument documentId = some document →
      KeepsCounts w σ (w.contextOf σ document now)) :
    EvidenceCounted ((w.extractDocument documentId now claimId).exec σ) := by
  obtain ⟨_, he⟩ | ⟨hs, document, hd, he⟩ := extractDocument_exec (w := w) (σ := σ)
    documentId now claimId
  case inl => rwa [he]
  case inr =>
    have hk := hk hs document hd
    rw [he]
    exact (extract_ended _ (Counting.preserved hw)
      ⟨hc, rfl, hk.left, fun _ => rfl⟩).counted hk

-- An extraction has nothing to do with merges.
theorem extractDocument_mergeHistory {documentId : DocumentId} {now : Timestamp}
    {claimId : ProvenanceId} :
    ((w.extractDocument documentId now claimId).exec σ).mergeHistory = σ.mergeHistory := by
  obtain ⟨_, he⟩ | ⟨_, document, _, he⟩ := extractDocument_exec (w := w) (σ := σ)
    documentId now claimId
  case inl => rw [he]
  case inr =>
    rw [he]
    have hp : Preserved w (w.contextOf σ document now)
        (w.reached σ (w.contextOf σ document now) [] (w.edgesOf σ (w.contextOf σ document now)))
        fun _ _ τ => τ.mergeHistory = σ.mergeHistory := by
      refine ⟨fun _ _ _ τ τ' h hn => ?_, fun _ _ _ _ _ τ τ' h hwr => by simp [hwr.tables, h]⟩
      have := congrArg Tables.mergeHistory hn.frame
      exact this.trans h
    cases extract_ended claimId hp rfl
    case finished τ _ h _ ht =>
      have := congrArg Tables.mergeHistory ht
      exact this.trans h
    case stopped h =>
      have ⟨_, _, _, τ, _, h, _, _, hf⟩ := h
      cases hf
      case conflict he => rw [he, h]
      case missing ht => simp [ht, h]

end Steps

end EntityWorker
