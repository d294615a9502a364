import OsintCore.Indexer.Checkpoint
import OsintCore.Control.Latest
import OsintCore.Api.Theorems.Pagination

@[simp]
theorem UInt64.toNat_saturatingAdd {a b : UInt64} :
    (a.saturatingAdd b).toNat = min (a.toNat + b.toNat) (2 ^ 64 - 1) := by
  have h : min (a.toNat + b.toNat) (2 ^ 64 - 1) < 2 ^ 64 := by omega
  rw [saturatingAdd, UInt64.toNat_ofNat_of_lt' h]

namespace Stamp

variable {τ ι : Type} [LinearOrder τ] {a : Stamp τ ι} {i : ι}

theorem later_some {t : τ} :
    a.later ⟨some t, i⟩ = if a.time.all (· < t) then ⟨some t, i⟩ else a := by
  have h : a.key < key (⟨some t, i⟩ : Stamp τ ι) ↔ a.time.all (· < t) := by
    have ⟨time, holder⟩ := a
    cases time
    case none   => exact iff_of_true (WithBot.bot_lt_coe t) rfl
    case some s => exact WithBot.coe_lt_coe.trans decide_eq_true_iff.symm
  simp only [later, h]

theorem later_none : a.later ⟨none, i⟩ = a :=
  later_of_le bot_le

end Stamp

namespace Indexer

def SourceMark.stamp (mark : SourceMark) : Stamp Timestamp (Option Uuid) :=
  ⟨mark.sourceAt, Uuid.parseStr mark.id⟩

def BatchProgress.stamp (progress : BatchProgress) : Stamp Timestamp (Option Uuid) :=
  ⟨progress.lastSourceAt, progress.lastObjectId⟩

-- The marks of the documents which were not refused for good.
def FlushedBatch.kept (batch : FlushedBatch) : List SourceMark :=
  batch.marks.filter (·.id ∉ batch.permanentFailures)

theorem BatchProgress.stamp_fromMarks (batch : FlushedBatch) :
    (fromMarks batch).stamp = (batch.kept.map SourceMark.stamp).foldl Stamp.later ⟨none, none⟩ := by
  rw [List.foldl_map, FlushedBatch.kept, List.foldl_filter]
  apply List.foldl_view
  intro progress mark _
  by_cases hf : mark.id ∈ batch.permanentFailures
  case pos => simp [hf]
  case neg =>
    cases ht : mark.sourceAt
    case none   => simp [hf, SourceMark.stamp, ht, Stamp.later_none]
    case some t =>
      simp only [hf, SourceMark.stamp, ht, Stamp.later_some, stamp]
      simp only [not_false_eq_true, decide_true, if_true, if_false]
      split <;> rfl

theorem BatchProgress.written_fromMarks (batch : FlushedBatch) :
    (fromMarks batch).written = batch.indexed.toUInt64 := by
  let P (progress : BatchProgress) : Prop := progress.written = batch.indexed.toUInt64
  apply List.foldl_invariant (show P { written := batch.indexed.toUInt64 } from rfl)
  intro progress mark _ h
  split_ifs
  case pos => exact h
  case neg =>
    split
    case h_1 => exact h
    case h_2 => split <;> exact h

end Indexer

open Indexer

namespace ProjectionCheckpoint

def stamp (checkpoint : ProjectionCheckpoint) : Stamp Timestamp (Option Uuid) :=
  ⟨checkpoint.lastSourceAt, checkpoint.lastObjectId⟩

-- The time and the id are replaced together.
theorem advance_eq (c : ProjectionCheckpoint) (sourceAt : Option Timestamp)
    (objectId : Option ObjectId) (written : UInt64) (now : Timestamp) :
    c.advance sourceAt objectId written now =
      { projection     := c.projection
        lastSourceAt   := (c.stamp.later ⟨sourceAt, objectId⟩).time
        lastObjectId   := (c.stamp.later ⟨sourceAt, objectId⟩).holder
        objectsWritten := c.objectsWritten.saturatingAdd written
        updatedAt      := now } := by
  cases sourceAt
  case none =>
    rw [Stamp.later_none]
    rfl
  case some t =>
    by_cases h : c.lastSourceAt.all (· < t)
    case pos => simp [advance, Stamp.later_some, stamp, h]
    case neg => simp [advance, Stamp.later_some, stamp, h]

variable (clock : Nat → Timestamp) (step : Nat) (batches : List FlushedBatch)
variable (c : ProjectionCheckpoint)

theorem stamp_advanceAll : (advanceAll clock step batches c).stamp =
    ((batches.flatMap FlushedBatch.kept).map SourceMark.stamp).foldl Stamp.later c.stamp := by
  induction batches generalizing step c
  case nil => rfl
  case cons batch batches hi =>
    rw [advanceAll, hi, advance_eq, List.flatMap_cons, List.map_append, List.foldl_append]
    have hs := BatchProgress.stamp_fromMarks batch
    rw [BatchProgress.stamp] at hs
    rw [stamp, hs, Stamp.later_foldl rfl]

theorem projection_advanceAll : (advanceAll clock step batches c).projection = c.projection := by
  induction batches generalizing step c
  case nil => rfl
  case cons batch batches hi => rw [advanceAll, hi, advance_eq]

theorem objectsWritten_advanceAll : (advanceAll clock step batches c).objectsWritten.toNat =
    min (c.objectsWritten.toNat + (batches.map (·.indexed.toNat)).sum) (2 ^ 64 - 1) := by
  induction batches generalizing step c
  case nil =>
    have h : c.objectsWritten.toNat < 2 ^ 64 := c.objectsWritten.toNat_lt
    simp only [advanceAll, List.map_nil, List.sum_nil]
    omega
  case cons batch batches hi =>
    rw [advanceAll, hi, advance_eq, UInt64.toNat_saturatingAdd,
      BatchProgress.written_fromMarks, UInt32.toNat_toUInt64, List.map_cons, List.sum_cons]
    omega

theorem updatedAt_advanceAll : (advanceAll clock step batches c).updatedAt =
    if batches = [] then c.updatedAt else clock (step + batches.length - 1) := by
  induction batches generalizing step c
  case nil => rfl
  case cons batch batches hi =>
    rw [advanceAll, hi, advance_eq, if_neg (List.cons_ne_nil _ _), List.length_cons]
    split
    case isTrue h  => simp [h]
    case isFalse h => congr 1; omega

-- The times which the batches bring, and the one which stands already.
def seen : Set Timestamp :=
  {t | c.lastSourceAt = some t ∨ ∃ mark ∈ batches.flatMap FlushedBatch.kept, mark.sourceAt = some t}

-- The time and the id are those of `mark`.
structure NamedBy (c : ProjectionCheckpoint) (mark : SourceMark) : Prop where
  isSome       : mark.sourceAt.isSome
  lastSourceAt : c.lastSourceAt = mark.sourceAt
  lastObjectId : c.lastObjectId = Uuid.parseStr mark.id

structure Progressed (c' : ProjectionCheckpoint) : Prop where
  latest         : ∀ t, c'.lastSourceAt = some t ↔ IsGreatest (c.seen batches) t
  unset          : c'.lastSourceAt = none ↔ c.seen batches = ∅
  named          : c'.stamp = c.stamp ∨
                   ∃ mark ∈ batches.flatMap FlushedBatch.kept, c'.NamedBy mark
  objectsWritten : c'.objectsWritten.toNat =
                   min (c.objectsWritten.toNat + (batches.map (·.indexed.toNat)).sum) (2 ^ 64 - 1)

-- A mark is named only if its time is later than the one which stands already.
theorem named_advanceAll : (advanceAll clock step batches c).stamp = c.stamp ∨
    ∃ mark ∈ batches.flatMap FlushedBatch.kept, c.stamp.key < mark.stamp.key ∧
      (advanceAll clock step batches c).NamedBy mark := by
  have hs := stamp_advanceAll clock step batches c
  rw [hs]
  cases Stamp.foldl_later_eq_or (l := (batches.flatMap FlushedBatch.kept).map SourceMark.stamp)
    (a := c.stamp)
  case inl h => exact .inl h
  case inr h =>
    have ⟨s, hm, hlt, he⟩ := h
    have ⟨mark, hm, hmark⟩ := List.mem_map.mp hm
    have hs : (advanceAll clock step batches c).stamp = mark.stamp := by rw [hs, he, hmark]
    have ht : mark.sourceAt ≠ none := by
      rintro ht
      rw [← hmark, Stamp.key, SourceMark.stamp, ht] at hlt
      exact not_lt_bot hlt
    refine .inr ⟨mark, hm, hmark ▸ hlt, Option.isSome_iff_ne_none.mpr ht, ?_, ?_⟩
    case refine_1 => exact congrArg Stamp.time hs
    case refine_2 => exact congrArg Stamp.holder hs

variable {clock step batches c} {batches' : List FlushedBatch}

theorem seen_eq : c.seen batches =
    Stamp.times (c.stamp :: (batches.flatMap FlushedBatch.kept).map SourceMark.stamp) := by
  ext t
  simp [seen, Stamp.times, stamp, SourceMark.stamp]

theorem progressed_advanceAll : c.Progressed batches (advanceAll clock step batches c) where
  latest t       := by
    rw [seen_eq, ← Stamp.time_foldl_later, ← stamp_advanceAll clock step]
    rfl
  unset          := by
    rw [seen_eq, ← Stamp.time_foldl_later_eq_none, ← stamp_advanceAll clock step]
    rfl
  named          := by
    apply named_advanceAll clock step batches c |>.imp_right
    exact fun ⟨mark, hm, _, hn⟩ => ⟨mark, hm, hn⟩
  objectsWritten := objectsWritten_advanceAll clock step batches c

theorem key_advanceAll_perm (h : batches'.Perm batches) :
    (advanceAll clock step batches' c).stamp.key = (advanceAll clock step batches c).stamp.key := by
  rw [stamp_advanceAll, stamp_advanceAll]
  exact Stamp.foldl_later_perm <| (h.flatMap_right _).map _

-- The batches in another order, at the same times.
structure Reordered (batches : List FlushedBatch) (c' c'' : ProjectionCheckpoint) : Prop where
  eq           : c'' = { c' with lastObjectId := c''.lastObjectId }
  lastObjectId : c''.lastObjectId = c'.lastObjectId ∨
                 ∃ mark ∈ batches.flatMap FlushedBatch.kept,
                 ∃ mark' ∈ batches.flatMap FlushedBatch.kept, c'.NamedBy mark ∧ c''.NamedBy mark'

theorem advanceAll_perm_eq (h : batches'.Perm batches) : advanceAll clock step batches' c =
    { advanceAll clock step batches c with
      lastObjectId := (advanceAll clock step batches' c).lastObjectId } := by
  have ht : (advanceAll clock step batches' c).lastSourceAt =
      (advanceAll clock step batches c).lastSourceAt := key_advanceAll_perm h
  have hw : (advanceAll clock step batches' c).objectsWritten =
      (advanceAll clock step batches c).objectsWritten := by
    apply UInt64.toNat_inj.mp
    rw [objectsWritten_advanceAll, objectsWritten_advanceAll, (h.map _).sum_eq]
  have hu : (advanceAll clock step batches' c).updatedAt =
      (advanceAll clock step batches c).updatedAt := by
    have he : batches' = [] ↔ batches = [] := by
      rw [← List.length_eq_zero_iff, h.length_eq, List.length_eq_zero_iff]
    simp only [updatedAt_advanceAll, h.length_eq, he]
  have hp : (advanceAll clock step batches' c).projection =
      (advanceAll clock step batches c).projection := by
    rw [projection_advanceAll, projection_advanceAll]
  exact ProjectionCheckpoint.ext hp ht rfl hw hu

theorem reordered_advanceAll (h : batches'.Perm batches) :
    Reordered batches (advanceAll clock step batches c) (advanceAll clock step batches' c) where
  eq           := advanceAll_perm_eq h
  lastObjectId := by
    have hk : (advanceAll clock step batches' c).stamp.key =
        (advanceAll clock step batches c).stamp.key := key_advanceAll_perm h
    have key_eq {c' : ProjectionCheckpoint} {mark : SourceMark} (hn : c'.NamedBy mark) :
        c'.stamp.key = mark.stamp.key := hn.lastSourceAt
    cases named_advanceAll clock step batches c <;>
    cases named_advanceAll clock step batches' c
    case inl.inl hs hs' => exact .inl <| congrArg Stamp.holder <| hs'.trans hs.symm
    case inl.inr hs hs' =>
      have ⟨mark', _, hlt, hn⟩ := hs'
      rw [← key_eq hn, hk, hs] at hlt
      exact absurd hlt (lt_irrefl _)
    case inr.inl hs hs' =>
      have ⟨mark, _, hlt, hn⟩ := hs
      rw [← key_eq hn, ← hk, hs'] at hlt
      exact absurd hlt (lt_irrefl _)
    case inr.inr hs hs' =>
      have ⟨mark, hm, _, hn⟩ := hs
      have ⟨mark', hm', _, hn'⟩ := hs'
      exact .inr ⟨mark, hm, mark', (h.flatMap_right _).mem_iff.mp hm', hn, hn'⟩

-- Marks of documents which were refused for good do not count, all others do.
theorem advanceAll_progresses (clock : Nat → Timestamp) (step : Nat) (c : ProjectionCheckpoint)
    (batches : List FlushedBatch) : c.Progressed batches (advanceAll clock step batches c) ∧
    (∀ mark id, (advanceAll clock step batches c).NamedBy mark → id < 2 ^ 128 →
      mark.id = Uuid.toText id → (advanceAll clock step batches c).lastObjectId = some id) ∧
    ∀ batches' : List FlushedBatch, batches'.Perm batches →
      Reordered batches (advanceAll clock step batches c) (advanceAll clock step batches' c) := by
  refine ⟨progressed_advanceAll, fun mark id hn hid ht => ?_, fun _ => reordered_advanceAll⟩
  rw [hn.lastObjectId, ht, Uuid.parseStr_toText hid]

-- The only document of the batch is refused.
theorem not_advanceAll_counts_refused :
    ¬ ∀ (clock : Nat → Timestamp) (c : ProjectionCheckpoint) (batches : List FlushedBatch) (t),
      (advanceAll clock 0 batches c).lastSourceAt = some t ↔
      IsGreatest {t | c.lastSourceAt = some t ∨ ∃ batch ∈ batches, ∃ mark ∈ batch.marks,
        mark.sourceAt = some t} t := by
  intro h
  have h := h (fun _ => 0) (empty "osint-documents" 0) [⟨[⟨"a", some 5⟩], 0, ["a"]⟩] 5
  have hn : (advanceAll (fun _ => 0) 0 [⟨[⟨"a", some 5⟩], 0, ["a"]⟩]
      (empty "osint-documents" 0)).lastSourceAt = none := by decide +kernel
  rw [hn] at h
  refine Option.some_ne_none _ (h.mpr ⟨?_, ?_⟩).symm
  case refine_1 => exact .inr ⟨_, .head _, _, .head _, rfl⟩
  case refine_2 =>
    intro t ht
    have ht : t = 5 := by simpa [empty, eq_comm] using ht
    exact ht.le

end ProjectionCheckpoint
