import OsintCore.Indexer.Theorems.Offsets
import OsintCore.Indexer.Theorems.Receive

open Indexer

namespace IndexerSystem

variable {w : Indexer} {s : IndexerSystem} {l : List Action} {id : DocumentId}

theorem following_step {a : Action} (h : s.Following w (a :: l)) (hr : s.Regular w a)
    (hc : s.Clear a) (ha : ∀ store, a = .write store → ∀ id, view store id ≠ view s.store id →
      ∃ payload, .publish (some payload) ∈ l ∧ documentIdFromPayload payload = .ok id) :
    (s.step w a).Following w l := by
  have hl (hp : ∀ payload, a ≠ .publish (some payload)) : s.Following w l :=
    ⟨h.left, fun id => (h.right id).rest hp⟩
  cases a <;> simp only [step]
  case publish message => exact following_publish h
  -- Nothing is published here, so that the events to come stay the same.
  all_goals replace hl := hl fun _ => Action.noConfusion
  case write store     => exact following_write hl hr (ha store rfl)
  case embed id fields => exact following_embed hl hr
  case crash           => exact following_restart hl
  case receive now fault =>
    cases hr
    split
    case isTrue  => exact hl
    case isFalse => exact following_receive hl hc
  case timeout now =>
    split
    case isTrue  => exact hl
    case isFalse => exact following_reason hl
  case interrupt =>
    split
    case isTrue  => exact hl
    case isFalse => exact following_reason hl
  case flush replies commits =>
    split
    case h_1 => exact hl
    case h_2 => exact following_conclude (following_flushBatch hl hr)

theorem following_run (h : s.Following w l) (hr : l.Along (step w) (Regular w) s)
    (ha : s.Announced w l) (hc : l.Along (step w) Clear s) : (s.run w l).Following w [] := by
  induction l generalizing s
  case nil            => exact h
  case cons a l hi =>
    exact hi (following_step h hr.left hc.left ha.left) hr.right ha.right hc.right

-- Once the index has followed everything, nothing is left which is still to come.
theorem Following.converged (h : s.Following w []) (hp : s.position = s.log.length)
    (hb : s.batch = []) : s.Converged w := by
  have ht : s.target = s.index := by simp [target, hb, SearchIndex.upsertAll]
  refine fun id => ⟨?_, h.left.vectored id⟩
  rcases h.right id with hs | ⟨k, hk, payload, he, _⟩ | ⟨_, hm, _⟩
  case inl     => exact ht ▸ hs
  case inr.inr => cases hm
  case inr.inl =>
    obtain ⟨hl, _⟩ := List.getElem?_eq_some_iff.mp he
    omega

-- Nothing has been stored yet.
def start : IndexerSystem where
  store := .empty
  index := .empty

theorem following_start : start.Following w l := by
  refine ⟨?_, fun id => ?_⟩
  case refine_1 =>
    exact ⟨nofun, fun _ _ _ _ => rfl, fun _ _ _ => rfl, nofun, nofun, nofun, Nat.le_refl _,
      Nat.le_refl _⟩
  case refine_2 =>
    have hs : Shows w none .empty id := rfl
    exact .inl hs

-- Once all events are handled and the last batch is flushed.
theorem run_converged (w : Indexer) (l : List Action) (hr : l.Along (step w) (Regular w) start)
    (ha : start.Announced w l) (hp : (start.run w l).position = (start.run w l).log.length)
    (hb : (start.run w l).batch = []) (hc : l.Along (step w) Clear start) :
    (start.run w l).Converged w :=
  (following_run following_start hr ha hc).converged hp hb

-- Of the actions, only writes change the store.
theorem store_step {a : Action} (h : ∀ store, a ≠ .write store) :
    (s.step w a).store = s.store := by
  have hh (now outcome index) : (s.handled now outcome index).store = s.store := by
    unfold handled
    split <;> rfl
  have hc (s : IndexerSystem) (commits : Bool) : (s.commitLast commits).store = s.store := by
    cases commits <;> rfl
  cases a <;> simp only [step]
  case write store => exact (h store rfl).elim
  case embed id fields =>
    unfold embed
    split <;> rfl
  case receive now fault =>
    split
    case isTrue => rfl
    case isFalse =>
      unfold receive
      split
      case h_1 => rfl
      case h_2 => rfl
      case h_3 => exact hh ..
  case timeout => split <;> rfl
  case interrupt => split <;> rfl
  case crash => rfl
  case flush replies commits =>
    split
    case h_1 => rfl
    case h_2 reason _ =>
      have hb : (s.flushBatch w reason replies commits).store = s.store := by
        unfold flushBatch
        split_ifs
        case pos => exact hc ..
        case neg => rfl
        case neg =>
          unfold flushOnce
          split
          case h_1 => exact hc ..
          case h_2 => rfl
      unfold conclude
      split <;> exact hb

theorem store_run (h : ∀ a ∈ l, ∀ store, a ≠ .write store) : (s.run w l).store = s.store := by
  induction l generalizing s
  case nil            => rfl
  case cons a l hi =>
    have ha : (s.step w a).store = s.store := store_step <| h a List.mem_cons_self
    exact (hi fun a hm => h a (List.mem_cons_of_mem _ hm)).trans ha

namespace Sample

def canonical : IndexerStore :=
  twoArticles.store

def duplicated : IndexerStore :=
  { IndexerStore.empty with
    documents    := { rows := [article 1 (some 2), article 2 none], sorted := by decide }
    duplicate_of := by decide }

def slow : Indexer where
  bounds  := { batchSize := 3 }
  rfc3339 := fun _ => "2026-01-01T00:00:00Z"

-- The first document becomes a duplicate of the second one, while it waits in the batch or later.
def early : List Action :=
  [.write canonical, .publish (extracted 1), .publish (extracted 2), .receive 0 none,
   .write duplicated, .publish (extracted 1), .receive 1 none, .receive 2 none, .timeout 3,
   .flush answered true]

def late : List Action :=
  [.write canonical, .publish (extracted 1), .publish (extracted 2), .receive 0 none,
   .receive 1 none, .timeout 2, .flush answered true, .embed 1 [("embedding_en", .array [])],
   .write duplicated, .publish (extracted 1), .receive 3 none]

theorem documentId_extracted :
    documentIdFromPayload (payloadOf 1) = .ok 1 ∧ documentIdFromPayload (payloadOf 2) = .ok 2 := by
  decide +kernel

end Sample

open IndexerSystem.Sample

-- There are no other documents.
theorem view_eq (id : DocumentId) (h₁ : id ≠ 1) (h₂ : id ≠ 2) :
    view canonical id = none ∧ view duplicated id = none := by
  have h {store : IndexerStore} (h : ∀ d ∈ store.documents, d.id ≠ id) : view store id = none := by
    have hg : store.getDocument id = none := Table.get?_eq_none.mpr h
    simp [view, hg]
  refine ⟨h ?_, h ?_⟩ <;>
    simp [Table.mem_def, canonical, twoArticles, duplicated, article, h₁.symm, h₂.symm]

theorem announced_canonical {l : List Action} (h₁ : .publish (extracted 1) ∈ l)
    (h₂ : .publish (extracted 2) ∈ l) (id : DocumentId) (h : view canonical id ≠ view {} id) :
    ∃ payload, .publish (some payload) ∈ l ∧ documentIdFromPayload payload = .ok id := by
  by_cases hi₁ : id = 1
  case pos =>
    subst hi₁
    exact ⟨payloadOf 1, h₁, documentId_extracted.left⟩
  by_cases hi₂ : id = 2
  case pos =>
    subst hi₂
    exact ⟨payloadOf 2, h₂, documentId_extracted.right⟩
  exact (h (view_eq id hi₁ hi₂).left).elim

theorem announced_duplicated {l : List Action} (h₁ : .publish (extracted 1) ∈ l)
    (id : DocumentId) (h : view duplicated id ≠ view canonical id) :
    ∃ payload, .publish (some payload) ∈ l ∧ documentIdFromPayload payload = .ok id := by
  by_cases hi₁ : id = 1
  case pos =>
    subst hi₁
    exact ⟨payloadOf 1, h₁, documentId_extracted.left⟩
  by_cases hi₂ : id = 2
  case pos => exact (h (by subst hi₂; rfl)).elim
  have ⟨hc, hd⟩ := view_eq id hi₁ hi₂
  exact (h (hd.trans hc.symm)).elim

def Flushes (w : Indexer) (s : IndexerSystem) (replies : Nat → BulkReply) : Bool :=
  match (w.flush (s.batch.map (·.document)) replies s.index).fst with
  | .ok report => report.permanentFailures.isEmpty
  | .error _   => false

theorem regular_flush {replies : Nat → BulkReply} {commits : Bool} (h : Flushes w s replies) :
    s.Regular w (.flush replies commits) := by
  unfold Flushes at h
  split at h
  case h_1 report he => exact ⟨report, List.isEmpty_iff.mp h, he⟩
  case h_2           => cases h

theorem clear_receive {now : Timestamp} {fault : Option Fault} (h : s.batch.isEmpty) :
    s.Clear (.receive now fault) :=
  fun _ _ _ _ _ _ hb => absurd (List.isEmpty_iff.mp h ▸ hb) List.not_mem_nil

theorem clear_receive_canonical {now : Timestamp} {fault : Option Fault} (h : s.store = canonical) :
    s.Clear (.receive now fault) := by
  intro id d _ hd hs
  have hm := Table.get?_mem (h ▸ hd)
  have hc : ∀ d ∈ canonical.documents.rows, d.duplicateOf = none := by
    simp [canonical, twoArticles, article]
  simp [hc d hm] at hs

theorem isSome_duplicated {id : DocumentId} (h : (canonical.getDocument id).isSome) :
    (duplicated.getDocument id).isSome := by
  have ⟨d, hm, hd⟩ := Table.isSome_get?.mp h
  refine Table.isSome_get?.mpr ?_
  simp only [Table.mem_def, canonical, twoArticles, List.mem_cons, List.not_mem_nil, or_false] at hm
  have hm : d.id = 1 ∨ d.id = 2 := hm.imp (congrArg Document.id) (congrArg Document.id)
  cases hm
  case inl hm => exact ⟨article 1 (some 2), by simp [Table.mem_def, duplicated], hm.symm.trans hd⟩
  case inr hm => exact ⟨article 2 none, by simp [Table.mem_def, duplicated], hm.symm.trans hd⟩

theorem store_late : (start.run slow (late.take 8)).store = canonical :=
  store_run (s := start.step slow (.write canonical)) (l := (late.take 8).tail) <| by
    simp [late]

theorem store_early : (start.run slow (early.take 4)).store = canonical :=
  store_run (s := start.step slow (.write canonical)) (l := (early.take 4).tail) <| by
    simp [early]

theorem run_early : start.run slow early =
    ((start.run slow (early.take 4)).step slow (.write duplicated)).run slow (early.drop 5) := by
  simp only [run, early, List.take, List.drop, List.foldl]

theorem store_early_end : (start.run slow early).store = duplicated := by
  rw [run_early]
  exact store_run (by simp [early])

theorem regular_duplicated (h : s.store = canonical) : s.Regular w (.write duplicated) :=
  fun _ hi => isSome_duplicated (h ▸ hi)

theorem run_converged_late : (start.run slow late).Converged slow := by
  have hf : Flushes slow (start.run slow (late.take 6)) answered := by decide +kernel
  have hb₃ : (start.run slow (late.take 3)).batch.isEmpty := by decide +kernel
  have hb₁₀ : (start.run slow (late.take 10)).batch.isEmpty := by decide +kernel
  have hb : (start.run slow late).batch.isEmpty := by decide +kernel
  have hs₄ : (start.run slow (late.take 4)).store = canonical :=
    store_run (s := start.step slow (.write canonical)) (l := (late.take 4).tail) (by simp [late])
  refine run_converged slow late ?_ ?_ (by decide +kernel) (List.isEmpty_iff.mp hb) ?_
  case refine_1 =>
    refine ⟨nofun, trivial, trivial, rfl, rfl, trivial, regular_flush hf, ?_,
      regular_duplicated store_late, trivial, rfl, trivial⟩
    intro f hm
    cases List.mem_singleton.mp hm
    decide
  case refine_2 =>
    refine ⟨?_, nofun, nofun, nofun, nofun, nofun, nofun, nofun, ?_, nofun, nofun, trivial⟩
    case refine_1 =>
      intro store he
      cases he
      exact announced_canonical (by simp) (by simp)
    case refine_2 =>
      intro store he
      cases he
      intro id hv
      exact announced_duplicated (by simp) id (store_late ▸ hv)
  case refine_3 =>
    exact ⟨trivial, trivial, trivial, clear_receive hb₃, clear_receive_canonical hs₄, trivial,
      trivial, trivial, trivial, trivial, clear_receive hb₁₀, trivial⟩

-- The duplicate, which has been deleted, comes back with the rest of its batch.
theorem not_run_converged : ¬∀ (w : Indexer) (l : List Action), l.Along (step w) (Regular w) start →
    start.Announced w l → (start.run w l).position = (start.run w l).log.length →
    (start.run w l).batch = [] → (start.run w l).Converged w := by
  intro h
  have hf : Flushes slow (start.run slow (early.take 9)) answered := by decide +kernel
  have hb : (start.run slow early).batch.isEmpty := by decide +kernel
  have hi : ((start.run slow early).index 1).isSome := by decide +kernel
  have hs := store_early_end
  have hc := h slow early ?regular ?announced (by decide +kernel) (List.isEmpty_iff.mp hb)
  case regular =>
    exact ⟨nofun, trivial, trivial, rfl, regular_duplicated store_early, trivial, rfl, rfl, trivial,
      regular_flush hf, trivial⟩
  case announced =>
    refine ⟨?_, nofun, nofun, nofun, ?_, nofun, nofun, nofun, nofun, nofun, trivial⟩
    case refine_1 =>
      intro store he
      cases he
      exact announced_canonical (by simp) (by simp)
    case refine_2 =>
      intro store he
      cases he
      intro id hv
      exact announced_duplicated (by simp) id (store_early ▸ hv)
  have hc := (hc 1).left
  rw [hs] at hc
  have hn : (start.run slow early).index 1 = none := hc
  simp [hn] at hi

end IndexerSystem
