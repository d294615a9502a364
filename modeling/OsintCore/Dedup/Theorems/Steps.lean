import OsintCore.Dedup.Service
import OsintCore.Storage.Theorems.Put

open Relation (ReflTransGen)
open Resumption

namespace Store

variable {σ : Store} {a b : DocumentId}

def DuplicateOf (σ : Store) (a b : DocumentId) : Prop :=
  ∃ d ∈ σ.documents, d.id = a ∧ d.duplicateOf = some b

-- Where the duplicates lead from `a` on.
structure ChainEnd (σ : Store) (a e : DocumentId) : Prop where
  path  : ReflTransGen (DuplicateOf σ) a e
  stops : ∀ b, DuplicateOf σ e b → b = e

theorem duplicateOf_iff {d : Document} (h : σ.getDocument a = some d) :
    DuplicateOf σ a b ↔ d.duplicateOf = some b := by
  have ⟨hd, hi⟩ := Table.get?_eq_some.mp h
  constructor
  case mp =>
    intro ⟨d', hd', hi', hb⟩
    rwa [Table.eq_of_key_eq hd hd' <| hi.trans hi'.symm]
  case mpr => exact fun hb => ⟨d, hd, hi, hb⟩

theorem lt_of_mem_findDocumentIds {p : Document → Bool} {before : DocumentId} {limit : Nat}
    (h : a ∈ σ.findDocumentIds p before limit) : a < before := by
  have ⟨d, hd, ha⟩ := List.mem_map.mp <| List.mem_of_mem_take h
  simp only [List.mem_filter, Bool.decide_and, Bool.and_eq_true, decide_eq_true_eq] at hd
  exact ha ▸ hd.right.right

theorem lt_of_mem_findSimhashCandidates {fingerprint : Int64} {maxDistance : Nat}
    {before : DocumentId} {scanLimit : Nat} {c : SimhashCandidate}
    (h : c ∈ σ.findSimhashCandidates fingerprint maxDistance before scanLimit) : c.id < before := by
  have h := List.mem_of_mem_filter <| List.mem_reverse.mp h
  have ⟨d, hd, hc⟩ := List.mem_filterMap.mp <| List.mem_reverse.mp <| List.mem_of_mem_take h
  have ⟨_, _, hc⟩ := Option.map_eq_some_iff.mp hc
  have hd := (List.mem_filter.mp hd).right
  simp only [decide_eq_true_eq] at hd
  exact hc ▸ hd

end Store

namespace Deduplicator

variable {w : Deduplicator} {σ τ : Store} {document : Document} {c : Call}

section ReadOnly

theorem existingClaim_readOnly {id : DocumentId} : (w.existingClaim id).ReadOnly :=
  readOnly_read

theorem platformOf_readOnly : (w.platformOf document).ReadOnly := by
  unfold platformOf
  split
  case h_1 => exact trivial
  case h_2 =>
    refine readOnly_read.bind fun evidence => ?_
    cases evidence
    case none => exact trivial
    case some => exact readOnly_read.bind fun _ => trivial

theorem deriveKeys_readOnly : (w.deriveKeys document).ReadOnly :=
  platformOf_readOnly.bind fun _ => trivial

theorem resolveFrom_readOnly {start : DocumentId} {n : Nat} {a : DocumentId} :
    (resolveFrom start n a).ReadOnly := by
  induction n generalizing a
  case zero => exact trivial
  case succ n hi =>
    refine readOnly_read.bind fun doc => ?_
    cases doc
    case none => exact trivial
    case some doc =>
      simp only
      split
      case h_2 => exact trivial
      case h_1 =>
        split_ifs
        · exact hi
        · exact trivial

theorem keyStage_readOnly {stage : DedupStage} {key : Option String}
    {find : Store → String → List DocumentId} : (keyStage stage key find).ReadOnly := by
  cases key
  case none => exact trivial
  case some key =>
    refine readOnly_read.bind fun candidates => ReadOnly.bind ?_ fun _ => trivial
    cases candidates
    case nil  => exact trivial
    case cons => exact resolveFrom_readOnly

theorem simhashStage_readOnly {fingerprint : Option Int64} :
    (w.simhashStage document fingerprint).ReadOnly := by
  cases fingerprint
  case none => exact trivial
  case some fingerprint =>
    refine readOnly_read.bind fun candidates => ?_
    split
    case h_1 => exact trivial
    case h_2 => exact resolveFrom_readOnly.bind fun _ => trivial

theorem semanticStage_readOnly {neighbours : Option (List SearchHit)} :
    (w.semanticStage document neighbours).ReadOnly := by
  unfold semanticStage
  split
  case h_3 => exact resolveFrom_readOnly.bind fun _ => trivial
  all_goals exact trivial

theorem orNext_readOnly {x y : M (Option DuplicateHit)} (hx : x.ReadOnly) (hy : y.ReadOnly) :
    (orNext x y).ReadOnly := by
  refine hx.bind fun hit => ?_
  cases hit
  case none => exact hy
  case some => exact trivial

theorem findDuplicate_readOnly {keys : DedupKeys} {neighbours : Option (List SearchHit)} :
    (w.findDuplicate document keys neighbours).ReadOnly :=
  orNext_readOnly keyStage_readOnly <| orNext_readOnly keyStage_readOnly <|
    orNext_readOnly keyStage_readOnly <| orNext_readOnly simhashStage_readOnly semanticStage_readOnly

end ReadOnly

-- The platform of a document, as far as the store knows it.
def platformIn (w : Deduplicator) (σ : Store) (document : Document) : Option String := do
  let rawId ← w.rawEvidenceIdOf document
  let evidence ← σ.getRawEvidence rawId
  let source ← σ.getSource evidence.sourceId
  source.platform

def keysIn (w : Deduplicator) (σ : Store) (document : Document) : DedupKeys :=
  w.keysOf document (w.platformIn σ document)

theorem deriveKeys_ensures {E : DeduplicatorError → Store → Prop} : (w.deriveKeys document).Ensures σ
    (fun keys τ => τ = σ ∧ keys = w.keysIn σ document) E := by
  simp only [deriveKeys, platformOf, keysIn, platformIn, ensures_bind, ensures_pure]
  cases w.rawEvidenceIdOf document
  case none => exact ⟨rfl, rfl⟩
  case some rawId =>
    simp only [ensures_bind, ensures_read, Option.bind_eq_bind, Option.bind_some]
    cases σ.getRawEvidence rawId
    case none => exact ⟨rfl, rfl⟩
    case some => exact ⟨rfl, rfl⟩

-- The documents which one of the stages compares with a document.
inductive Candidate (w : Deduplicator) (σ : Store) (document : Document)
    (neighbours : Option (List SearchHit)) (a : DocumentId) : Prop
  | externalKey {key : String} (key_eq : (w.keysIn σ document).externalKey = some key)
    (mem : a ∈ σ.findDocumentIdsByExternalKey key document.id w.bounds.candidateLimit)
  | canonicalUrl {url : String} (url_eq : (w.keysIn σ document).canonicalUrl = some url)
    (mem : a ∈ σ.findDocumentIdsByCanonicalUrl url document.id w.bounds.candidateLimit)
  | contentHash {hash : String} (hash_eq : (w.keysIn σ document).contentHash = some hash)
    (mem : a ∈ σ.findDocumentIdsByContentHash hash document.id w.bounds.candidateLimit)
  | simhash {fingerprint : Int64} {simhash : Int64}
    (fingerprint_eq : (w.keysIn σ document).simhash = some fingerprint)
    (mem : ⟨a, simhash⟩ ∈ σ.findSimhashCandidates fingerprint w.bounds.simhashMaxDistance
      document.id w.bounds.simhashScanLimit)
  | semantic {similarity : Confidence} {model : String}
    (detect : w.detect document neighbours = .hit a similarity model)

theorem Candidate.lt_or_semantic {neighbours : Option (List SearchHit)} {a : DocumentId}
    (h : w.Candidate σ document neighbours a) :
    a < document.id ∨ ∃ similarity model, w.detect document neighbours = .hit a similarity model := by
  cases h
  case semantic detect => exact .inr ⟨_, _, detect⟩
  case simhash mem     => exact .inl <| Store.lt_of_mem_findSimhashCandidates mem
  all_goals exact .inl <| Store.lt_of_mem_findDocumentIds ‹_›

section Find

-- What is known about the end of the chain from a candidate, and about a failure to find it.
variable {R : DocumentId → DocumentId → Prop} {D : DeduplicatorError → Prop}

def Resolves (σ : Store) (R : DocumentId → DocumentId → Prop) (D : DeduplicatorError → Prop) : Prop :=
  ∀ a, (resolveCanonical a).Ensures σ (fun e τ => τ = σ ∧ ∀ b ∈ e, R a b) fun e τ => τ = σ ∧ D e

def Hits (σ : Store) (R : DocumentId → DocumentId → Prop) (C : DocumentId → Prop)
    (hit : Option DuplicateHit) (τ : Store) : Prop :=
  τ = σ ∧ ∀ h ∈ hit, ∃ a, C a ∧ R a h.canonicalObjectId

variable (hr : Resolves σ R D)
include hr

theorem Resolves.map_ensures {C : DocumentId → Prop} {a : DocumentId} (ha : C a)
    {f : DocumentId → DuplicateHit} (hf : ∀ b, (f b).canonicalObjectId = b) :
    (do let canonical ← resolveCanonical a; return canonical.map f : M _).Ensures σ (Hits σ R C)
      fun e τ => τ = σ ∧ D e := by
  rw [ensures_bind]
  refine (hr a).mono (fun e τ ⟨hτ, he⟩ => ⟨hτ, fun h hh => ?_⟩) fun _ _ h => h
  have ⟨b, hb, hh⟩ := Option.map_eq_some_iff.mp hh
  exact ⟨a, ha, hh ▸ (hf b).symm ▸ he b hb⟩

theorem Resolves.keyStage_ensures {C : DocumentId → Prop} {stage : DedupStage} {key : Option String}
    {find : Store → String → List DocumentId} (hC : ∀ k ∈ key, ∀ a ∈ find σ k, C a) :
    (keyStage stage key find).Ensures σ (Hits σ R C) fun e τ => τ = σ ∧ D e := by
  cases key
  case none => exact ⟨rfl, by simp⟩
  case some key =>
    simp only [keyStage, ensures_bind, ensures_read]
    have hC := hC key rfl
    cases h : find σ key
    case nil       => exact ⟨rfl, by simp⟩
    case cons a as => exact ensures_bind.mp <| hr.map_ensures (hC a <| by simp [h]) fun _ => rfl

theorem Resolves.simhashStage_ensures {C : DocumentId → Prop} {fingerprint : Option Int64}
    (hC : ∀ f ∈ fingerprint, ∀ c ∈ σ.findSimhashCandidates f w.bounds.simhashMaxDistance document.id
      w.bounds.simhashScanLimit, C c.id) :
    (w.simhashStage document fingerprint).Ensures σ (Hits σ R C) fun e τ => τ = σ ∧ D e := by
  cases fingerprint
  case none => exact ⟨rfl, by simp⟩
  case some fingerprint =>
    simp only [simhashStage, ensures_bind, ensures_read]
    split
    case h_1 => exact ⟨rfl, by simp⟩
    case h_2 best hb =>
      have hm := List.argmin_mem hb
      apply hr.map_ensures (hC fingerprint rfl best hm)
      exact fun _ => rfl

theorem Resolves.semanticStage_ensures {C : DocumentId → Prop}
    {neighbours : Option (List SearchHit)}
    (hC : ∀ a s m, w.detect document neighbours = .hit a s m → C a) :
    (w.semanticStage document neighbours).Ensures σ (Hits σ R C) fun e τ => τ = σ ∧ D e := by
  unfold semanticStage
  split
  case h_3 h =>
    have hC := hC _ _ _ h
    apply hr.map_ensures hC
    exact fun _ => rfl
  all_goals exact ⟨rfl, by simp⟩

omit hr in
theorem orNext_ensures {C : DocumentId → Prop} {x y : M (Option DuplicateHit)}
    {E : DeduplicatorError → Store → Prop} (hx : x.Ensures σ (Hits σ R C) E)
    (hy : y.Ensures σ (Hits σ R C) E) : (orNext x y).Ensures σ (Hits σ R C) E := by
  rw [orNext, ensures_bind]
  refine hx.mono (fun hit τ h => ?_) fun _ _ h => h
  cases hit
  case some => exact h
  case none => exact h.left ▸ hy

theorem Resolves.findDuplicate_ensures {neighbours : Option (List SearchHit)} :
    (w.findDuplicate document (w.keysIn σ document) neighbours).Ensures σ
      (Hits σ R (w.Candidate σ document neighbours)) fun e τ => τ = σ ∧ D e := by
  apply orNext_ensures
  case hx => exact hr.keyStage_ensures fun _ hk _ ha => .externalKey hk ha
  apply orNext_ensures
  case hx => exact hr.keyStage_ensures fun _ hk _ ha => .canonicalUrl hk ha
  apply orNext_ensures
  case hx => exact hr.keyStage_ensures fun _ hk _ ha => .contentHash hk ha
  apply orNext_ensures
  case hx => exact hr.simhashStage_ensures fun _ hf _ hc => .simhash hf hc
  exact hr.semanticStage_ensures fun _ _ _ h => .semantic h

end Find

section Record

-- What the documents look like when a document has been processed, or given up.
inductive Processed (w : Deduplicator) (σ : Store) (c : Call) (R : DocumentId → DocumentId → Prop)
    (τ : Store) : Prop
  | unchanged (documents : τ.documents = σ.documents)
  | written {document : Document} {hit : Option DuplicateHit}
    (found : σ.getDocument c.documentId = some document)
    (hits : Hits σ R (w.Candidate σ document c.neighbours) hit σ)
    (documents : τ.documents = σ.documents.put (updated document (w.keysIn σ document) hit))

theorem ensures_put {f : Store → Except StorageError Store} {Q : Unit → Store → Prop}
    {E : DeduplicatorError → Store → Prop} : (put f).Ensures σ Q E ↔
      (∀ σ', f σ = .ok σ' → Q () σ') ∧ ∀ e, f σ = .error e → E (.storage e) σ := by
  simp [put, ensures_write]

theorem writeGroup_ensures {hit : DuplicateHit} {now : Timestamp} :
    (w.writeGroup document hit now).Ensures σ (fun _ τ => τ.documents = σ.documents)
      fun e τ => τ.documents = σ.documents ∧ ∃ s, e = .storage s := by
  simp only [writeGroup, ensures_bind, ensures_read, ensures_put, ensures_pure]
  constructor
  case left =>
    intro τ h
    obtain ⟨_, _, h⟩ := Store.putDuplicateGroup_eq_ok.mp h
    have hd := congrArg Tables.documents h
    exact hd
  case right => simp

theorem writeHit_ensures {hit : Option DuplicateHit} {now : Timestamp} :
    (w.writeHit document now hit).Ensures σ (fun _ τ => τ.documents = σ.documents)
      fun e τ => τ.documents = σ.documents ∧ ∃ s, e = .storage s := by
  cases hit
  case none => exact rfl
  case some => exact ensures_bind.mpr <| writeGroup_ensures.mono (fun _ _ h => h) fun _ _ h => h

theorem takeClaim_ensures {hit : Option DuplicateHit} {groupId : Option DuplicateGroupId}
    {claim : Provenance} : (w.takeClaim document hit groupId claim).Ensures σ
      (fun _ τ => τ.documents = σ.documents)
        fun e τ => τ.documents = σ.documents ∧ ∃ s, e = .storage s := by
  unfold takeClaim
  rw [ensures_bind, ensures_attempt]
  constructor
  case left =>
    intro τ h
    have ⟨_, _, _, h⟩ := Store.putProvenance_eq_ok.mp h
    have hd := congrArg Tables.documents h
    exact hd
  case right =>
    intro e _
    cases e
    case constraintViolation => exact ⟨rfl, _, rfl⟩
    case conflict =>
      simp only [ensures_bind, existingClaim, ensures_read]
      split
      case h_1 => exact rfl
      case h_2 => exact ⟨rfl, _, rfl⟩

theorem record_ensures {hit : Option DuplicateHit} {keys : DedupKeys} {now : Timestamp}
    {claimId : ProvenanceId} : (w.record document hit keys now claimId).Ensures σ
      (fun _ τ => τ.documents = σ.documents.put document) fun e τ =>
        (τ.documents = σ.documents ∨ τ.documents = σ.documents.put document) ∧
          ∃ s, e = .storage s := by
  simp only [record, ensures_bind]
  refine writeHit_ensures.mono (fun groupId τ hτ => ?_) fun e τ h => ⟨.inl h.left, h.right⟩
  rw [ensures_put]
  refine ⟨fun τ' h => ?_, fun e _ => ⟨.inl hτ, e, rfl⟩⟩
  have hd : τ'.documents = σ.documents.put document :=
    hτ ▸ congrArg Tables.documents (Store.putDocument_eq_ok.mp h).right
  exact takeClaim_ensures.mono (fun _ _ h => h.trans hd) fun _ _ h => ⟨.inr <| h.left.trans hd, h.right⟩

theorem dedupDocument_ensures {R : DocumentId → DocumentId → Prop} {D : DeduplicatorError → Prop}
    (hr : Resolves σ R D) : (w.dedupDocument c).Ensures σ (fun _ τ => w.Processed σ c R τ)
      fun e τ => w.Processed σ c R τ ∧ ((∃ s, e = .storage s) ∨ D e) := by
  simp only [dedupDocument, existingClaim, ensures_bind, ensures_read]
  split
  case h_1 => exact .unchanged rfl
  simp only [ensures_bind, ensures_read]
  split
  case h_1 => exact .unchanged rfl
  case h_2 document hd =>
    rw [ensures_bind]
    refine deriveKeys_ensures.mono (fun keys τ h => ?_) fun _ _ h => h
    obtain ⟨hτ, hk⟩ := h
    subst hτ hk
    rw [ensures_bind]
    refine hr.findDuplicate_ensures.mono (fun hit τ' hh => ?_) fun e τ' he => ?_
    case refine_1 =>
      obtain ⟨hτ', hh⟩ := hh
      subst hτ'
      refine record_ensures.mono (fun _ υ h => .written hd ⟨rfl, hh⟩ h) fun e υ h => ?_
      exact ⟨h.left.elim .unchanged <| .written hd ⟨rfl, hh⟩, .inl h.right⟩
    case refine_2 => exact ⟨.unchanged <| he.left ▸ rfl, .inr he.right⟩

end Record

end Deduplicator
