import OsintCore.Indexer.Service
import OsintCore.Search.Theorems.Upsert

namespace Indexer

variable {replies : Nat → BulkReply} {index index' : SearchIndex} {batch : List SearchDocument}

theorem bulkUpsertFields_ok {reply : BulkReply} {result : BulkIndexResult}
    (h : index.bulkUpsertFields batch reply = (.ok result, index')) :
    result.failures = SearchIndex.collectBulkFailures batch reply.refused ∧
      index' = index.applyItems batch reply.refused := by
  unfold SearchIndex.bulkUpsertFields at h
  split at h
  case isTrue he =>
    cases h
    cases List.isEmpty_iff.mp he
    exact ⟨rfl, rfl⟩
  case isFalse =>
    cases ha : reply.answered <;> simp only [ha, Bool.false_eq_true, if_false, if_true] at h
    case false => cases h
    case true =>
      cases h
      exact ⟨rfl, rfl⟩

-- An attempt after which no item is to be repeated has written everything, unless it gives up an item.
theorem applyItems_done {reply : BulkReply} {failures : List BulkFailure}
    (hf : failures = SearchIndex.collectBulkFailures batch reply.refused)
    (hr : failures.filter (·.isRetryable) = []) (hp : failures.filter (¬·.isRetryable) = []) :
    index.applyItems batch reply.refused = index.upsertAll batch := by
  have hn : failures = [] := by
    refine List.eq_nil_iff_forall_not_mem.mpr fun failure hm => ?_
    have hr := List.filter_eq_nil_iff.mp hr failure hm
    exact List.filter_eq_nil_iff.mp hp failure hm (by simpa using hr)
  have h := SearchIndex.upsertAll_retry index [] (h := fun failure hm =>
    absurd (hf ▸ hm) (hn ▸ List.not_mem_nil))
  simpa [SearchIndex.upsertAll] using h

-- If no item is given up, the batch is written as if none had ever been refused.
theorem flushLoop_ok {attempt left : Nat} {report report' : FlushReport}
    (h : flushLoop replies attempt left batch report index = (.ok report', index'))
    (hp : report'.permanentFailures = []) :
    report.permanentFailures = [] ∧ index' = index.upsertAll batch := by
  induction left generalizing attempt batch report index
  case zero =>
    unfold flushLoop at h
    split at h
    case h_1 => cases h
    case h_2 result applied hb =>
      have ⟨hf, ha⟩ := bulkUpsertFields_ok hb
      dsimp only at h
      split at h
      case h_1 hr =>
        cases h
        have ⟨hp, hn⟩ := List.append_eq_nil_iff.mp hp
        exact ⟨hp, ha.trans <| applyItems_done hf hr (by simpa using hn)⟩
      case h_2 => cases h
      case h_3 => contradiction
  case succ left hi =>
    unfold flushLoop at h
    split at h
    case h_1 => cases h
    case h_2 result applied hb =>
      have ⟨hf, ha⟩ := bulkUpsertFields_ok hb
      dsimp only at h
      split at h
      case h_1 hr =>
        cases h
        have ⟨hp, hn⟩ := List.append_eq_nil_iff.mp hp
        exact ⟨hp, ha.trans <| applyItems_done hf hr (by simpa using hn)⟩
      case h_2 => contradiction
      case h_3 he =>
        cases he
        have ⟨hp, he⟩ := hi h
        have ⟨hp, hn⟩ := List.append_eq_nil_iff.mp hp
        refine ⟨hp, he.trans ?_⟩
        rw [ha]
        refine SearchIndex.upsertAll_retry index _ fun failure hm => ?_
        have hr : failure.isRetryable := by
          by_contra hr
          exact List.filter_eq_nil_iff.mp hn failure (hf ▸ hm) (by simpa using hr)
        exact List.mem_map_of_mem <| List.mem_filter.mpr ⟨hf ▸ hm, hr⟩

theorem flush_ok {w : Indexer} {report : FlushReport}
    (h : w.flush batch replies index = (.ok report, index')) (hp : report.permanentFailures = []) :
    index' = index.upsertAll batch := by
  unfold flush at h
  split at h
  case isTrue he =>
    cases h
    cases List.isEmpty_iff.mp he
    rfl
  case isFalse => exact (flushLoop_ok h hp).right

end Indexer
