import OsintCore.Control.Interleaving
import OsintCore.Dedup.Theorems.Backward

open Resumption

def Provenance.Claims (p : Provenance) (id : DocumentId) : Prop :=
  p.subjectOf actionDeduplicated = some id

-- What the rows about a document say is the given canonical document.
structure Store.Agrees (σ : Store) (id : DocumentId) (canonical : Option DocumentId) : Prop where
  document : ∀ d, σ.getDocument id = some d → d.duplicateOf = canonical
  groups   : ∀ g ∈ σ.duplicateGroups, g.memberObjectId = some id → some g.canonicalObjectId = canonical

def Store.Grouped (σ : Store) (id : DocumentId) : Prop :=
  ∃ g ∈ σ.duplicateGroups, g.memberObjectId = some id

namespace Deduplicator

variable {w : Deduplicator} {σ τ : Store} {document : Document} {hit : Option DuplicateHit}
  {groupId : Option DuplicateGroupId} {keys : DedupKeys} {now : Timestamp} {claimId : ProvenanceId}

-- The claim, the document and its group name the same canonical document.
structure Settled (w : Deduplicator) (σ : Store) (claim : Provenance) (id : DocumentId) : Prop where
  agrees   : σ.Agrees id claim.parentId
  grouped  : claim.parentId.isSome → σ.Grouped id
  metadata : claim.metadata.get "canonical_object_id" =
    some (jsonOf <| claim.parentId.map w.formatUuid)

structure Consistent (w : Deduplicator) (σ : Store) : Prop where
  named   : ∀ g ∈ σ.duplicateGroups, ∀ id ∈ g.memberObjectId, g.id = w.duplicateGroupId id
  settled : ∀ claim ∈ σ.provenance, ∀ id, claim.Claims id → w.Settled σ claim id

section Writes

variable (hσ : w.Consistent σ)
include hσ

theorem Consistent.putGroup {hit : DuplicateHit} {firstSeen : Timestamp}
    (hw : Function.Injective w.newV5)
    (h : σ.putDuplicateGroup (w.groupOf document hit firstSeen) = .ok τ)
    (hc : ∀ claim ∈ σ.provenance, claim.Claims document.id →
      claim.parentId = some hit.canonicalObjectId) :
    w.Consistent τ ∧ τ.Grouped document.id ∧ ∀ id, σ.Grouped id → τ.Grouped id := by
  have ⟨_, _, ht⟩ := Store.putDuplicateGroup_eq_ok.mp h
  have hg := congrArg Tables.duplicateGroups ht
  have hp := congrArg Tables.provenance ht
  have hd := congrArg Tables.documents ht
  simp only at hg hp hd
  have hm {g : DuplicateGroup} : g ∈ τ.duplicateGroups ↔ g = w.groupOf document hit firstSeen ∨
      g ∈ σ.duplicateGroups ∧ g.id ≠ w.duplicateGroupId document.id := by
    rw [hg]
    exact Table.mem_put
  have hn : τ.Grouped document.id := ⟨_, hm.mpr <| .inl rfl, rfl⟩
  -- A group which is replaced belongs to the same document.
  have hk (id : DocumentId) (h : σ.Grouped id) : τ.Grouped id := by
    have ⟨g, hgm, hi⟩ := h
    by_cases he : g.id = w.duplicateGroupId document.id
    case neg => exact ⟨g, hm.mpr <| .inr ⟨hgm, he⟩, hi⟩
    case pos =>
      have he := hw <| (hσ.named g hgm id hi).symm.trans he
      cases he
      exact hn
  refine ⟨⟨fun g hgm id hi => ?_, fun claim hcm id hi => ?_⟩, hn, hk⟩
  case refine_1 =>
    obtain rfl | ⟨hgm, _⟩ := hm.mp hgm
    · cases hi
      rfl
    · exact hσ.named g hgm id hi
  case refine_2 =>
    rw [hp] at hcm
    have hs := hσ.settled claim hcm id hi
    refine ⟨⟨fun d hd' => hs.agrees.document d ?_, fun g hgm hgi => ?_⟩, hk id ∘ hs.grouped,
      hs.metadata⟩
    · rwa [Store.getDocument, ← hd]
    · obtain rfl | ⟨hgm, _⟩ := hm.mp hgm
      · cases hgi
        exact (hc claim hcm hi).symm
      · exact hs.agrees.groups g hgm hgi

theorem Consistent.putDocument (h : σ.putDocument document = .ok τ)
    (hc : ∀ claim ∈ σ.provenance, claim.Claims document.id →
      claim.parentId = document.duplicateOf) :
    w.Consistent τ ∧ ∀ id, σ.Grouped id → τ.Grouped id := by
  have ⟨_, ht⟩ := Store.putDocument_eq_ok.mp h
  have hg := congrArg Tables.duplicateGroups ht
  have hp := congrArg Tables.provenance ht
  have hd := congrArg Tables.documents ht
  simp only at hg hp hd
  have hk (id : DocumentId) (h : σ.Grouped id) : τ.Grouped id := by
    rwa [Store.Grouped, hg]
  refine ⟨⟨by rw [hg]; exact hσ.named, fun claim hcm id hi => ?_⟩, hk⟩
  rw [hp] at hcm
  have hs := hσ.settled claim hcm id hi
  refine ⟨⟨fun d hd' => ?_, by rw [hg]; exact hs.agrees.groups⟩, hk id ∘ hs.grouped, hs.metadata⟩
  rw [Store.getDocument, hd, Table.get?_put] at hd'
  split_ifs at hd' with he
  case neg => exact hs.agrees.document d hd'
  case pos =>
    cases hd'
    subst he
    exact (hc claim hcm hi).symm

theorem Consistent.putClaim
    (h : σ.putProvenance (w.claimOf document hit keys now claimId) = .ok τ)
    (hg : hit.isSome → σ.Grouped document.id)
    (hc : σ.Agrees document.id (hit.map DuplicateHit.canonicalObjectId)) :
    w.Consistent τ ∧ ∀ id, σ.Grouped id → τ.Grouped id := by
  have ⟨_, _, _, ht⟩ := Store.putProvenance_eq_ok.mp h
  have hgs := congrArg Tables.duplicateGroups ht
  have hp := congrArg Tables.provenance ht
  have hd := congrArg Tables.documents ht
  simp only at hgs hp hd
  have hk (id : DocumentId) (h : σ.Grouped id) : τ.Grouped id := by
    rwa [Store.Grouped, hgs]
  have ha {id : DocumentId} {canonical : Option DocumentId} (h : σ.Agrees id canonical) :
      τ.Agrees id canonical :=
    ⟨by rw [Store.getDocument, hd]; exact h.document, by rw [hgs]; exact h.groups⟩
  refine ⟨⟨by rw [hgs]; exact hσ.named, fun claim hcm id hi => ?_⟩, hk⟩
  rw [hp] at hcm
  obtain rfl | ⟨hcm, _⟩ := Table.mem_put.mp hcm
  case inr =>
    have hs := hσ.settled claim hcm id hi
    exact ⟨ha hs.agrees, hk id ∘ hs.grouped, hs.metadata⟩
  case inl =>
    have hi : document.id = id := by simpa [Provenance.Claims, Provenance.subjectOf, claimOf] using hi
    subst hi
    refine ⟨ha hc, fun h => hk _ <| hg <| by simpa [claimOf] using h, ?_⟩
    cases hit <;> rfl

end Writes

-- What is left of `record` after the group has been written.
def recordDocument (w : Deduplicator) (document : Document) (hit : Option DuplicateHit)
    (groupId : Option DuplicateGroupId) (keys : DedupKeys) (now : Timestamp)
    (claimId : ProvenanceId) : M DedupOutcome := do
  put (·.putDocument document)
  w.takeClaim document hit groupId (w.claimOf document hit keys now claimId)

-- How far a consumer has got.
inductive Phase (w : Deduplicator) (σ : Store) : M DedupOutcome → Prop
  | deciding {x : M DedupOutcome} (reads : x.ReadsUntil fun y =>
      ∃ document hit keys now claimId, document.duplicateOf = hit.map DuplicateHit.canonicalObjectId ∧
        y = w.record document hit keys now claimId) : Phase w σ x
  | group {document : Document} {hit : DuplicateHit} {firstSeen : Timestamp}
    {groupId : Option DuplicateGroupId} {keys : DedupKeys} {now : Timestamp} {claimId : ProvenanceId}
    (decided : document.duplicateOf = some hit.canonicalObjectId) :
    Phase w σ <| put (·.putDuplicateGroup (w.groupOf document hit firstSeen)) >>= fun _ =>
      w.recordDocument document (some hit) groupId keys now claimId
  | document {document : Document} {hit : Option DuplicateHit} {groupId : Option DuplicateGroupId}
    {keys : DedupKeys} {now : Timestamp} {claimId : ProvenanceId}
    (grouped : hit.isSome → σ.Grouped document.id) :
    Phase w σ <| w.recordDocument document hit groupId keys now claimId
  | claim {document : Document} {hit : Option DuplicateHit} {groupId : Option DuplicateGroupId}
    {keys : DedupKeys} {now : Timestamp} {claimId : ProvenanceId}
    (grouped : hit.isSome → σ.Grouped document.id) :
    Phase w σ <| w.takeClaim document hit groupId (w.claimOf document hit keys now claimId)
  | ending {x : M DedupOutcome} (reads : x.ReadsUntil fun _ => False) : Phase w σ x

theorem Phase.frame {x : M DedupOutcome} (h : w.Phase σ x) (hg : ∀ id, σ.Grouped id → τ.Grouped id) :
    w.Phase τ x := by
  cases h
  case deciding h => exact .deciding h
  case group h    => exact .group h
  case document h => exact .document (hg _ ∘ h)
  case claim h    => exact .claim (hg _ ∘ h)
  case ending h   => exact .ending h

theorem dedupDocument_phase (c : Call) : w.Phase σ (w.dedupDocument c) := by
  refine .deciding <| existingClaim_readOnly.readsUntil fun done => ?_
  cases done
  case some => exact .done
  refine readsUntil_read_bind fun s => ?_
  cases s.getDocument c.documentId
  case none => exact .done
  case some document =>
    refine deriveKeys_readOnly.readsUntil fun keys => findDuplicate_readOnly.readsUntil fun hit => ?_
    exact .reached ⟨updated document keys hit, hit, keys, c.now, c.claimId, rfl, rfl⟩

theorem record_phase {hit : Option DuplicateHit} (keys : DedupKeys) (now : Timestamp)
    (claimId : ProvenanceId)
    (hd : document.duplicateOf = hit.map DuplicateHit.canonicalObjectId) :
    (hit = none ∧ w.record document hit keys now claimId =
      w.recordDocument document hit none keys now claimId) ∨
    (∃ h, hit = some h ∧ w.record document hit keys now claimId =
      do
        let existing ← .read (·.getDuplicateGroup (w.duplicateGroupId document.id))
        let firstSeen := existing.elim now DuplicateGroup.firstSeen
        put (·.putDuplicateGroup (w.groupOf document h firstSeen))
        w.recordDocument document hit (some <| w.duplicateGroupId document.id) keys now claimId) := by
  cases hit
  case none => exact .inl ⟨rfl, rfl⟩
  case some h => exact .inr ⟨h, rfl, by simp [record, writeHit, writeGroup, recordDocument]⟩

-- What a consumer must not find when it comes to one of its writes: a claim which says otherwise or,
-- when it takes the claim itself, rows which another consumer has changed.
structure Undisturbed (w : Deduplicator) (σ : Store) (x : M DedupOutcome) : Prop where
  group : ∀ document hit firstSeen next,
    x = (put (·.putDuplicateGroup (w.groupOf document hit firstSeen)) >>= next) →
      ∀ claim ∈ σ.provenance, claim.Claims document.id → claim.parentId = some hit.canonicalObjectId
  document : ∀ document next, x = (put (·.putDocument document) >>= next) →
    ∀ claim ∈ σ.provenance, claim.Claims document.id → claim.parentId = document.duplicateOf
  claim : ∀ document hit groupId keys now claimId,
    x = w.takeClaim document hit groupId (w.claimOf document hit keys now claimId) →
      (σ.putProvenance (w.claimOf document hit keys now claimId)).isOk →
        σ.Agrees document.id (hit.map DuplicateHit.canonicalObjectId)

section Advance

variable {x : M DedupOutcome}

-- A step which keeps the store consistent and takes a consumer to its next phase.
structure Kept (w : Deduplicator) (σ : Store) (s : Store × M DedupOutcome) : Prop where
  consistent : w.Consistent s.fst
  phase      : w.Phase s.fst s.snd
  grouped    : ∀ id, σ.Grouped id → s.fst.Grouped id

theorem advance_put_bind {f : Store → Except StorageError Store} {next : Unit → M DedupOutcome} :
    (put f >>= next).advance σ = match f σ with
      | .ok τ    => (τ, next ())
      | .error e => (σ, .fail (.storage e)) := by
  rw [put, advance_write_bind]
  cases f σ <;> rfl

theorem Kept.failed (hσ : w.Consistent σ) {e : DeduplicatorError} : w.Kept σ (σ, .fail e) :=
  ⟨hσ, .ending .fail, fun _ => id⟩

theorem advance_group {h : DuplicateHit} {firstSeen : Timestamp} (hw : Function.Injective w.newV5)
    (hσ : w.Consistent σ) (hu : w.Undisturbed σ <|
      put (·.putDuplicateGroup (w.groupOf document h firstSeen)) >>= fun _ =>
        w.recordDocument document (some h) groupId keys now claimId) :
    w.Kept σ <| (put (·.putDuplicateGroup (w.groupOf document h firstSeen)) >>= fun _ =>
      w.recordDocument document (some h) groupId keys now claimId).advance σ := by
  rw [advance_put_bind]
  split
  case h_2 => exact .failed hσ
  case h_1 hp =>
    have ⟨hτ, hg, hk⟩ := hσ.putGroup hw hp <| hu.group _ _ _ _ rfl
    exact ⟨hτ, .document fun _ => hg, hk⟩

theorem advance_document (hσ : w.Consistent σ) (hg : hit.isSome → σ.Grouped document.id)
    (hu : w.Undisturbed σ <| w.recordDocument document hit groupId keys now claimId) :
    w.Kept σ <| (w.recordDocument document hit groupId keys now claimId).advance σ := by
  rw [recordDocument, advance_put_bind]
  split
  case h_2 => exact .failed hσ
  case h_1 hp =>
    have ⟨hτ, hk⟩ := hσ.putDocument hp <| hu.document _ _ rfl
    exact ⟨hτ, .claim (hk _ ∘ hg), hk⟩

theorem advance_claim (hσ : w.Consistent σ) (hg : hit.isSome → σ.Grouped document.id)
    (hu : w.Undisturbed σ <|
      w.takeClaim document hit groupId (w.claimOf document hit keys now claimId)) :
    w.Kept σ <|
      (w.takeClaim document hit groupId (w.claimOf document hit keys now claimId)).advance σ := by
  rw [takeClaim, advance_attempt_bind]
  split
  case h_1 hp =>
    have ha := hu.claim _ _ _ _ _ _ rfl <| by simp [hp, Except.isOk, Except.toBool]
    obtain ⟨hτ, hk⟩ := hσ.putClaim hp hg ha
    exact ⟨hτ, .ending .done, hk⟩
  case h_2 e _ =>
    refine ⟨hσ, .ending ?_, fun _ => id⟩
    cases e
    case constraintViolation => exact .fail
    case conflict =>
      refine existingClaim_readOnly.readsUntil fun found => ?_
      cases found
      case none => exact .fail
      case some => exact .done

theorem Phase.advance (hw : Function.Injective w.newV5) (hσ : w.Consistent σ) (hx : w.Phase σ x)
    (hu : w.Undisturbed σ x) : w.Kept σ (x.advance σ) := by
  cases hx
  case group         => exact advance_group hw hσ hu
  case document hg   => exact advance_document hσ hg hu
  case claim hg      => exact advance_claim hσ hg hu
  case ending hr     =>
    have ⟨hs, hr⟩ := hr.advance (s := σ) |>.resolve_left id
    exact ⟨by rwa [hs], .ending hr, by rw [hs]; exact fun _ => id⟩
  case deciding hr =>
    obtain ⟨document, hit, keys, now, claimId, hd, rfl⟩ | ⟨hs, hr⟩ := hr.advance (s := σ)
    case inr => exact ⟨by rwa [hs], .deciding hr, by rw [hs]; exact fun _ => id⟩
    case inl =>
      obtain ⟨rfl, he⟩ | ⟨h, rfl, he⟩ := record_phase (w := w) keys now claimId hd
      case inl =>
        rw [he] at hu ⊢
        exact advance_document hσ (by simp) hu
      case inr =>
        rw [he, advance_read_bind]
        exact ⟨hσ, .group hd, fun _ => id⟩

end Advance

section Run

variable {ι : Type} [DecidableEq ι]

-- All consumers start at once, those which start later have not been scheduled before.
def pool (w : Deduplicator) (σ : Store) (calls : ι → Call) : Pool ι Store DeduplicatorError DedupOutcome where
  shared   := σ
  programs := fun i => w.dedupDocument (calls i)

-- Whatever the schedule is, the claims agree with the documents and the groups for as long as no
-- consumer is disturbed.
theorem run_settled {calls : ι → Call} {schedule : List ι} (hw : Function.Injective w.newV5)
    (hσ : w.Consistent σ) (hu : schedule.Along Pool.step
      (fun p i => w.Undisturbed p.shared (p.programs i)) (w.pool σ calls)) :
    ∀ earlier, earlier <+: schedule → w.Consistent ((w.pool σ calls).run earlier).shared := by
  intro earlier hp
  refine (hu.take hp).foldl (P := fun p => w.Consistent p.shared ∧
    ∀ j, w.Phase p.shared (p.programs j)) ⟨hσ, fun j => dedupDocument_phase (calls j)⟩ ?_ |>.left
  intro p i ⟨hσ, hx⟩ hu
  have hk := (hx i).advance hw hσ hu
  exact ⟨hk.consistent, Pool.step_forall (A := fun _ x s => w.Phase s x) hk.phase
    fun j _ => (hx j).frame hk.grouped⟩

end Run

-- While nothing is claimed, a consumer is disturbed only when it takes a claim.
theorem Undisturbed.of_unclaimed {x : M DedupOutcome} (hp : ∀ claim ∈ σ.provenance.rows, False)
    (ha : ∀ claim ∈ (x.advance σ).fst.provenance.rows, σ.Agrees claim.subjectId claim.parentId) :
    w.Undisturbed σ x where
  group _ _ _ _ _ claim hc  := absurd hc <| hp claim
  document _ _ _ claim hc   := absurd hc <| hp claim
  claim document hit groupId keys now claimId hx hok := by
    have ⟨τ, hτ⟩ := Except.exists_of_isOk hok
    have ⟨_, _, _, ht⟩ := Store.putProvenance_eq_ok.mp hτ
    have ht := congrArg Tables.provenance ht
    refine ha (w.claimOf document hit keys now claimId) ?_
    rw [hx, takeClaim, advance_attempt_bind, hτ]
    exact ht ▸ Table.mem_put_self ..

instance {id : DocumentId} {canonical : Option DocumentId} : Decidable (σ.Agrees id canonical) :=
  decidable_of_iff ((∀ d ∈ σ.documents.rows, d.id = id → d.duplicateOf = canonical) ∧
    ∀ g ∈ σ.duplicateGroups.rows, g.memberObjectId = some id → some g.canonicalObjectId = canonical)
    ⟨fun ⟨hd, hg⟩ => ⟨fun d h => hd d (Table.get?_mem h) (Table.get?_key h), hg⟩,
      fun ⟨hd, hg⟩ => ⟨fun d hm hi => hd d <| Table.get?_eq_some.mpr ⟨hm, hi⟩, hg⟩⟩

-- Two consumers compare the document `2` with the document `1`.
def similarCalls : Bool → Call
  | false => { documentId := 2, now := 7, claimId := 41, neighbours := some [Sample.neighbour 1] }
  | true  => { documentId := 2, now := 8, claimId := 42, neighbours := some [Sample.neighbour 1] }

-- Here only one of them gets an answer from the vector search.
def similarCalls' : Bool → Call
  | false => { documentId := 2, now := 7, claimId := 41, neighbours := none }
  | true  => { documentId := 2, now := 8, claimId := 42, neighbours := some [Sample.neighbour 1] }

def similarSchedule : List Bool :=
  [false, false, false, false, true, true, true, true, false, true, false, true, false, true, false]

theorem similarSchedule_undisturbed : similarSchedule.Along Pool.step
    (fun p i => Sample.deduplicator.Undisturbed p.shared (p.programs i))
    (Sample.deduplicator.pool Sample.similarNotes similarCalls) := by
  have h : similarSchedule.Along Pool.step (fun p i => (∀ claim ∈ p.shared.provenance.rows, False) ∧
      ∀ claim ∈ ((p.programs i).advance p.shared).fst.provenance.rows,
        p.shared.Agrees claim.subjectId claim.parentId)
      (Sample.deduplicator.pool Sample.similarNotes similarCalls) := by decide +kernel
  exact h.mono fun _ _ ⟨hp, ha⟩ => .of_unclaimed hp ha

theorem similarNotes_consistent : Sample.deduplicator.Consistent Sample.similarNotes :=
  ⟨fun _ h => absurd h Table.not_mem_empty, fun _ h => absurd h Table.not_mem_empty⟩

theorem run_settled_similarCalls : Sample.deduplicator.Consistent
    ((Sample.deduplicator.pool Sample.similarNotes similarCalls).run similarSchedule).shared :=
  run_settled Sample.newV5_injective similarNotes_consistent similarSchedule_undisturbed _
    (List.prefix_refl _)

-- One consumer has decided, and writes only after the other one has taken the claim.
def overtakenSchedule : List Bool :=
  [true, true, true, true, false, false, false, false, false, true, true, true, true, true]

theorem not_run_settled : ¬∀ (w : Deduplicator) (σ : Store) (calls : Bool → Call)
    (schedule : List Bool), Function.Injective w.newV5 → w.Consistent σ →
      (calls true).documentId = (calls false).documentId →
        w.Consistent ((w.pool σ calls).run schedule).shared := by
  intro h
  have hc := h Sample.deduplicator Sample.similarNotes similarCalls' overtakenSchedule
    Sample.newV5_injective similarNotes_consistent rfl
  let σ := ((Sample.deduplicator.pool Sample.similarNotes similarCalls').run overtakenSchedule).shared
  have hs : ∃ claim ∈ σ.provenance.rows, claim.subjectOf actionDeduplicated = some 2 ∧
      ¬σ.Agrees 2 claim.parentId := by decide +kernel
  have ⟨claim, hm, hi, ha⟩ := hs
  exact ha (hc.settled claim hm 2 hi).agrees

end Deduplicator
