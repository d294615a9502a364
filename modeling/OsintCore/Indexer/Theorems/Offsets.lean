import OsintCore.Indexer.Consumer

open Indexer

-- What has been built for an event, or for a later event of the same document.
def Indexer.Batched.Covers (b' b : Batched) : Prop :=
  b' = b ∨ b.offset < b'.offset ∧ b'.document.id = b.document.id

namespace IndexerSystem

variable {w : Indexer} {s : IndexerSystem}

-- Once the committed offset is past an event whose document was ready, the document has been
-- submitted by a flush which returned `Ok`.
def Covered (s : IndexerSystem) : Prop :=
  ∀ k < s.committed, ∀ d, s.outcomes k = some (.ready d) → ∃ b ∈ s.submitted, b.Covers ⟨k, d⟩

-- Where an offset is committed, the documents of the failed flushes have come up again.
def Recovers (s : IndexerSystem) : Action → Prop
  | .flush _ true => ∀ b ∈ s.lost, ∃ b' ∈ s.submitted ++ s.batch, b'.Covers b
  | _             => True

-- Each document is where it can be found: the events between the committed offset and the position
-- have been delivered to this process.
structure Tracked (s : IndexerSystem) : Prop where
  covered      : s.Covered
  delivered    : ∀ k, s.committed ≤ k → k < s.position → ∀ d, s.outcomes k = some (.ready d) →
    ⟨k, d⟩ ∈ s.submitted ++ s.batch ++ s.lost
  committed_le : s.committed ≤ s.position
  last_le      : ∀ n ∈ s.last, s.committed ≤ n ∧ n ≤ s.position

namespace Tracked

theorem init (store : IndexerStore) (index : SearchIndex) :
    Tracked { store, index } where
  covered      := fun k hk => absurd hk (Nat.not_lt_zero k)
  delivered    := fun k _ hk => absurd hk (Nat.not_lt_zero k)
  committed_le := Nat.le_refl 0
  last_le      := nofun

-- Moving documents about does not lose any of them.
theorem moved {s' : IndexerSystem} (h : s.Tracked) (ho : s'.outcomes = s.outcomes)
    (hp : s'.position = s.position) (hc : s'.committed = s.committed) (hl : s'.last = s.last)
    (hs : s.submitted ⊆ s'.submitted)
    (hm : s.submitted ++ s.batch ++ s.lost ⊆ s'.submitted ++ s'.batch ++ s'.lost) :
    s'.Tracked where
  covered k hk d hd :=
    have ⟨b, hb, hv⟩ := h.covered k (hc ▸ hk) d (ho ▸ hd)
    ⟨b, hs hb, hv⟩
  delivered k hk hp' d hd := hm <| h.delivered k (hc ▸ hk) (hp ▸ hp') d (ho ▸ hd)
  committed_le            := hc ▸ hp ▸ h.committed_le
  last_le n hn            := hc ▸ hp ▸ h.last_le n (hl ▸ hn)

-- An event is delivered, and its document is kept if it is ready.
theorem deliver {s' : IndexerSystem} {o : Option PrepareOutcome} (h : s.Tracked)
    (ho : s'.outcomes = Function.update s.outcomes s.position o) (hp : s'.position = s.position + 1)
    (hc : s'.committed = s.committed) (hl : s'.last = s.last ∨ s'.last = some (s.position + 1))
    (hs : s.submitted = s'.submitted)
    (hm : s.submitted ++ s.batch ++ s.lost ⊆ s'.submitted ++ s'.batch ++ s'.lost)
    (hd : ∀ d, o = some (.ready d) → ⟨s.position, d⟩ ∈ s'.batch) : s'.Tracked := by
  have hk {k} (hk : k < s.position) : s'.outcomes k = s.outcomes k :=
    ho ▸ Function.update_of_ne (Nat.ne_of_lt hk) _ _
  refine ⟨?covered, ?delivered, ?committed, ?last⟩
  case covered =>
    intro k hkc d hr
    have hkc : k < s.committed := hc ▸ hkc
    exact hs ▸ h.covered k hkc d (hk (Nat.lt_of_lt_of_le hkc h.committed_le) ▸ hr)
  case delivered =>
    intro k hkc hkp d hr
    cases Nat.lt_succ_iff_lt_or_eq.mp (hp ▸ hkp)
    case inl hkp => exact hm <| h.delivered k (hc ▸ hkc) hkp d (hk hkp ▸ hr)
    case inr hkp =>
      subst hkp
      have hb := hd d (by simpa [ho] using hr)
      simp [hb]
  case committed => exact hc ▸ hp ▸ Nat.le_succ_of_le h.committed_le
  case last =>
    intro n hn
    have hle := h.committed_le
    rw [hc, hp]
    cases hl
    case inl hl => exact (h.last_le n (hl ▸ hn)).imp_right Nat.le_succ_of_le
    case inr hl =>
      cases hl ▸ hn
      exact ⟨Nat.le_succ_of_le hle, Nat.le_refl _⟩

theorem handled (h : s.Tracked) (now : Timestamp) (outcome : Except IndexerError PrepareOutcome)
    (index : SearchIndex) : (s.handled now outcome index).Tracked := by
  unfold IndexerSystem.handled
  split
  case h_1 d =>
    refine h.deliver rfl rfl rfl (.inr rfl) rfl ?kept ?pushed
    case kept =>
      intro b hb
      simp only [push, advance, List.mem_append] at hb ⊢
      exact hb.imp_left (.imp_right .inl)
    case pushed =>
      intro d' hd
      cases hd
      exact List.mem_append_right _ <| List.mem_singleton.mpr rfl
  case h_2 hn =>
    refine h.deliver rfl rfl rfl (.inr rfl) rfl (List.Subset.refl _) fun d hd => ?_
    cases outcome
    case error => cases hd
    case ok o  => exact (hn d (congrArg Except.ok (Option.some.inj hd))).elim

theorem receive (h : s.Tracked) (now : Timestamp) (fault : Option Fault) :
    (s.receive w now fault).Tracked := by
  unfold IndexerSystem.receive
  split
  case h_1 => exact h
  case h_2 => exact h.deliver rfl rfl rfl (.inl rfl) rfl (List.Subset.refl _) nofun
  case h_3 payload _ =>
    have h := h.handled now (s.handleEnvelope w payload now fault).fst
      (s.handleEnvelope w payload now fault).snd
    exact ⟨h.covered, h.delivered, h.committed_le, h.last_le⟩

-- Nothing is left to be committed which has not been submitted.
theorem commitLast (h : s.Tracked) (hb : s.batch = []) {commits : Bool}
    (hr : commits → ∀ b ∈ s.lost, ∃ b' ∈ s.submitted, b'.Covers b) :
    (s.commitLast commits).Tracked := by
  cases commits
  case false => exact h
  case true =>
    cases hl : s.last
    case none =>
      have hc : (s.commitLast true).committed = s.committed := by
        simp [IndexerSystem.commitLast, hl]
      exact h.moved rfl rfl hc rfl (List.Subset.refl _) (List.Subset.refl _)
    case some n =>
      have ⟨hc, hn⟩ := h.last_le n hl
      refine ⟨?_, ?_, ?_, ?_⟩ <;> simp only [IndexerSystem.commitLast, hl, if_true, Option.getD_some]
      case refine_1 =>
        intro k hk d hd
        by_cases hkc : k < s.committed
        case pos => exact h.covered k hkc d hd
        case neg =>
          have hm := h.delivered k (Nat.le_of_not_lt hkc) (Nat.lt_of_lt_of_le hk hn) d hd
          simp only [hb, List.append_nil, List.mem_append] at hm
          cases hm
          case inl hm => exact ⟨_, hm, .inl rfl⟩
          case inr hm => exact hr rfl _ hm
      case refine_2 => exact fun k hk hp d hd => h.delivered k (Nat.le_trans hc hk) hp d hd
      case refine_3 => exact hn
      case refine_4 =>
        intro m hm
        cases hm
        exact ⟨Nat.le_refl n, hn⟩

theorem restart (h : s.Tracked) : s.restart.Tracked where
  covered      := h.covered
  delivered    := fun _ hk hp => absurd hp (Nat.not_lt.mpr hk)
  committed_le := Nat.le_refl _
  last_le      := nofun

theorem flushOnce (h : s.Tracked) (replies : Nat → BulkReply) {commits : Bool}
    (hr : commits → ∀ b ∈ s.lost, ∃ b' ∈ s.submitted ++ s.batch, b'.Covers b) :
    (s.flushOnce w replies commits).Tracked := by
  unfold IndexerSystem.flushOnce
  split
  case h_1 =>
    apply commitLast ?_ rfl hr
    exact h.moved rfl rfl rfl rfl (List.subset_append_left ..) (by simp)
  case h_2 => exact h.moved rfl rfl rfl rfl (List.Subset.refl _) (by simp)

theorem flushBatch (h : s.Tracked) (reason : FlushReason) (replies : Nat → BulkReply)
    {commits : Bool} (hr : commits → ∀ b ∈ s.lost, ∃ b' ∈ s.submitted ++ s.batch, b'.Covers b) :
    (s.flushBatch w reason replies commits).Tracked := by
  unfold IndexerSystem.flushBatch
  split_ifs with hb
  case pos =>
    have hb := List.isEmpty_iff.mp hb
    exact h.commitLast hb (by simpa [hb] using hr)
  case neg => exact h
  case neg =>
    have h := h.flushOnce (w := w) replies hr
    exact ⟨h.covered, h.delivered, h.committed_le, h.last_le⟩

theorem conclude (h : s.Tracked) (reason : FlushReason) : (s.conclude reason).Tracked := by
  unfold IndexerSystem.conclude
  split
  case isTrue  => exact h.restart
  case isFalse => exact ⟨h.covered, h.delivered, h.committed_le, h.last_le⟩

end Tracked

theorem tracked_step {a : Action} (h : s.Tracked) (hr : s.Recovers a) : (s.step w a).Tracked := by
  cases a <;> simp only [step]
  case write store       => exact ⟨h.covered, h.delivered, h.committed_le, h.last_le⟩
  case publish message   => exact ⟨h.covered, h.delivered, h.committed_le, h.last_le⟩
  case crash             => exact h.restart
  case embed id fields =>
    unfold embed
    split
    case h_1 => exact h
    case h_2 => exact ⟨h.covered, h.delivered, h.committed_le, h.last_le⟩
  case receive now fault =>
    split
    case isTrue  => exact h
    case isFalse => exact h.receive now fault
  case timeout now =>
    split
    case isTrue  => exact h
    case isFalse => exact ⟨h.covered, h.delivered, h.committed_le, h.last_le⟩
  case interrupt =>
    split
    case isTrue  => exact h
    case isFalse => exact ⟨h.covered, h.delivered, h.committed_le, h.last_le⟩
  case flush replies commits =>
    split
    case h_1        => exact h
    case h_2 reason _ =>
      refine (h.flushBatch reason replies fun hc => ?_).conclude reason
      subst hc
      exact hr

-- Wherever flushes fail, commits fail and the process stops.
theorem run_covered (w : Indexer) (store : IndexerStore) (index : SearchIndex) (l : List Action)
    (h : l.Along (step w) Recovers { store, index }) :
    (({ store, index } : IndexerSystem).run w l).Covered :=
  h.foldl (P := Tracked) (.init store index) (fun _ _ => tracked_step) |>.covered

namespace Sample

def article (id : DocumentId) (duplicateOf : Option DocumentId) : Document where
  id                    := id
  objectType            := .article
  schemaVersion         := "1"
  title                 := some "t"
  body                  := none
  summary               := none
  language              := some "en"
  author                := none
  publishedAt           := none
  modifiedAt            := none
  observedAt            := 0
  collectedAt           := 0
  sourceUrl             := none
  canonicalUrl          := none
  normalizedContentHash := none
  confidence            := 1
  labels                := []
  attributes            := .object []
  externalKey           := none
  simhash               := none
  duplicateOf           := duplicateOf

def indexer : Indexer where
  bounds  := { batchSize := 1 }
  rfc3339 := fun _ => "2026-01-01T00:00:00Z"

def twoArticles : IndexerSystem where
  store := { IndexerStore.empty with
    documents    := { rows := [article 1 none, article 2 none], sorted := by decide }
    duplicate_of := by decide }
  index := .empty

def payloadOf (id : DocumentId) : Json :=
  .object [("document_id", .string (Uuid.toText id))]

def extracted (id : DocumentId) : Option Json :=
  some (payloadOf id)

def unanswered : Nat → BulkReply :=
  fun _ => { answered := false }

def answered : Nat → BulkReply :=
  fun _ => {}

-- The flush of the first document fails. The process goes on, or it is started again.
def failedFlush (next : Action) : List Action :=
  [.publish (extracted 1), .publish (extracted 2), .receive 0 none, .flush unanswered true, next,
   .receive 1 none, .flush answered true]

def readyId : PrepareOutcome → Option DocumentId
  | .ready document => some document.id
  | _               => none

theorem lost_failedFlush :
    (twoArticles.run indexer ((failedFlush .crash).take 6)).lost.isEmpty := by
  decide +kernel

end Sample

open IndexerSystem.Sample

theorem run_covered_restart :
    (twoArticles.run indexer (failedFlush .crash)).Covered ∧
      (twoArticles.run indexer (failedFlush .crash)).committed = 1 := by
  refine ⟨run_covered indexer _ _ _ ?_, by decide +kernel⟩
  refine ⟨trivial, trivial, trivial, ?_, trivial, trivial, ?_, trivial⟩
  · intro b hb
    exact absurd hb List.not_mem_nil
  · intro b hb
    have hl := List.isEmpty_iff.mp lost_failedFlush
    exact absurd hb (hl ▸ List.not_mem_nil)

-- The commit which follows the next document passes the lost one as well.
theorem not_run_covered : ¬∀ (w : Indexer) (store : IndexerStore) (index : SearchIndex)
    (l : List Action), (({ store, index } : IndexerSystem).run w l).Covered := by
  intro h
  have h := h indexer twoArticles.store .empty (failedFlush (.publish none)) 0 (by decide +kernel)
  have hr : (twoArticles.run indexer (failedFlush (.publish none))).outcomes 0 >>= readyId =
      some 1 := by decide +kernel
  have hs : ∀ b ∈ (twoArticles.run indexer (failedFlush (.publish none))).submitted,
      b.document.id = 2 := by decide +kernel
  have ⟨outcome, ho, hi⟩ := Option.bind_eq_some_iff.mp hr
  cases outcome <;> simp only [readyId, reduceCtorEq, Option.some.injEq] at hi
  case ready d =>
  have ⟨b, hb, hc⟩ := h d ho
  have hd : b.document.id = d.id := hc.elim (fun he => he ▸ rfl) And.right
  have he : 2 = 1 := (hs b hb).symm.trans (hd.trans hi)
  cases he

end IndexerSystem
