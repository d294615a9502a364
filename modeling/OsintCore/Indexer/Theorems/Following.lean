import OsintCore.Indexer.Theorems.Shows

open Indexer

namespace IndexerSystem

variable {w : Indexer} {s : IndexerSystem} {l : List Action} {id : DocumentId}

-- The event at this offset is about the document.
def Extracted (s : IndexerSystem) (k : Nat) (id : DocumentId) : Prop :=
  ∃ payload, s.log[k]? = some (some payload) ∧ documentIdFromPayload payload = .ok id

-- The index once the batch has been flushed.
def target (s : IndexerSystem) : SearchIndex :=
  s.index.upsertAll (s.batch.map (·.document))

-- The index holds exactly the documents which are no duplicates, with the fields which the indexer
-- and the embedding worker have for them.
def Converged (w : Indexer) (s : IndexerSystem) : Prop :=
  ∀ id, Shows w (view s.store id) s.index id ∧
    ∀ name ∈ embeddingFields, s.index.fieldOf id name = s.vectors id name

-- Documents stay in the store, the embedding worker keeps to its fields, and nothing fails.
def Regular (w : Indexer) (s : IndexerSystem) : Action → Prop
  | .write store     => ∀ id, (s.store.getDocument id).isSome → (store.getDocument id).isSome
  | .embed _ fields  => ∀ f ∈ fields, f.fst ∈ embeddingFields
  | .receive _ fault => fault = none
  | .flush replies _ => ∃ report, report.permanentFailures = [] ∧
      (w.flush (s.batch.map (·.document)) replies s.index).fst = .ok report
  | _                => True

-- Each change of a document is followed by an event for it.
def Announced (w : Indexer) : IndexerSystem → List Action → Prop
  | _, []     => True
  | s, a :: l =>
    (∀ store, a = .write store → ∀ id, view store id ≠ view s.store id →
      ∃ payload, .publish (some payload) ∈ l ∧ documentIdFromPayload payload = .ok id) ∧
    Announced w (s.step w a) l

-- No version of a document waits in the batch when the document turns out to be a duplicate.
def Clear (s : IndexerSystem) : Action → Prop
  | .receive _ _ => ∀ id d, s.Extracted s.position id → s.store.getDocument id = some d →
      d.duplicateOf.isSome → ∀ b ∈ s.batch, b.document.id ≠ id
  | _            => True

-- What holds between the actions.
structure Tidy (s : IndexerSystem) : Prop where
  bodies       : ∀ b ∈ s.batch, ∀ name, (b.document.body.lookup name).isSome ↔ name ∈ bodyFields
  names        : ∀ id name, name ∉ bodyFields → name ∉ embeddingFields →
    s.index.fieldOf id name = none
  vectored     : ∀ id, ∀ name ∈ embeddingFields, s.index.fieldOf id name = s.vectors id name
  existing     : ∀ id, (s.target id).isSome → (s.store.getDocument id).isSome
  offsets      : ∀ b ∈ s.batch, s.committed ≤ b.offset ∧ s.Extracted b.offset b.document.id
  last_le      : ∀ n ∈ s.last, n ≤ s.position
  committed_le : s.committed ≤ s.position
  position_le  : s.position ≤ s.log.length

-- The document is right as soon as the batch is flushed, or an event for it is still to come.
def Follows (w : Indexer) (s : IndexerSystem) (l : List Action) (id : DocumentId) : Prop :=
  Shows w (view s.store id) s.target id ∨ (∃ k, s.position ≤ k ∧ s.Extracted k id) ∨
    ∃ payload, .publish (some payload) ∈ l ∧ documentIdFromPayload payload = .ok id

namespace Tidy

-- Where a document has left the index, its fields have left it too.
theorem vectored_kept (h : s.Tidy) {index : SearchIndex}
    (hi : ∀ id, index id = s.index id ∨ index id = none) (id : DocumentId) :
    ∀ name ∈ embeddingFields, index.fieldOf id name = s.keptVectors index id name := by
  intro name hn
  cases hx : index id
  case none => simp [SearchIndex.fieldOf, keptVectors, hx]
  case some source =>
    have he : s.index id = some source := (hi id).elim (· ▸ hx) fun h => by simp [h] at hx
    have hv := h.vectored id name hn
    simp only [SearchIndex.fieldOf, he] at hv
    simpa [SearchIndex.fieldOf, keptVectors, hx] using hv

-- A document which nothing is known about has no field but those of the embedding worker.
theorem fieldOf_target (h : s.Tidy) {name : String} (hb : name ∉ bodyFields)
    (he : name ∉ embeddingFields) : s.target.fieldOf id name = none := by
  have hl : SearchIndex.latest (s.batch.map (·.document)) id name = none := by
    refine SearchIndex.latest_eq_none.mpr fun d hd _ => ?_
    have ⟨b, hb', hd⟩ := List.mem_map.mp hd
    subst hd
    exact Option.not_isSome_iff_eq_none.mp <| (h.bodies b hb' name).not.mpr hb
  rw [target, SearchIndex.fieldOf_upsertAll, hl, h.names id name hb he]
  rfl

theorem not_mem_latest (h : s.Tidy) {name : String} (he : name ∈ embeddingFields) :
    SearchIndex.latest (s.batch.map (·.document)) id name = none := by
  refine SearchIndex.latest_eq_none.mpr fun d hd _ => ?_
  have ⟨b, hb', hd⟩ := List.mem_map.mp hd
  subst hd
  exact Option.not_isSome_iff_eq_none.mp <| (h.bodies b hb' name).not.mpr (not_mem_bodyFields he)

-- A flush without failures leaves the index as it was going to be.
theorem flushed (h : s.Tidy) {s' : IndexerSystem} (hi : s'.index = s.target) (hb : s'.batch = [])
    (hs : s'.store = s.store) (hv : s'.vectors = s.vectors) (hl : s'.log = s.log)
    (hp : s'.position = s.position) (hn : ∀ n ∈ s'.last, n ≤ s.position)
    (hc : s'.committed ≤ s.position) : s'.Tidy := by
  have ht : s'.target = s.target := by simp [target, hi, hb, SearchIndex.upsertAll]
  refine ⟨?_, ?_, ?_, ?_, ?_, hp ▸ hn, hp ▸ hc, hp ▸ hl ▸ h.position_le⟩
  case refine_1 => exact fun b hm => absurd (hb ▸ hm) List.not_mem_nil
  case refine_2 => exact fun id name hb he => hi ▸ h.fieldOf_target hb he
  case refine_3 =>
    intro id name he
    rw [hi, hv, target, SearchIndex.fieldOf_upsertAll, h.not_mem_latest he]
    simpa using h.vectored id name he
  case refine_4 => exact fun id hm => hs ▸ h.existing id (ht ▸ hm)
  case refine_5 => exact fun b hm => absurd (hb ▸ hm) List.not_mem_nil

end Tidy

-- The invariant of a run of which `l` is still to come.
def Following (w : Indexer) (s : IndexerSystem) (l : List Action) : Prop :=
  s.Tidy ∧ ∀ id, s.Follows w l id

theorem Follows.frame {s' : IndexerSystem} (h : s.Follows w l id)
    (hs : Shows w (view s.store id) s.target id → Shows w (view s'.store id) s'.target id)
    (hp : s'.position ≤ s.position) (hl : s'.log = s.log) : s'.Follows w l id := by
  cases h
  case inl h => exact .inl <| hs h
  case inr h =>
    refine .inr <| h.imp_left fun ⟨k, hk, he⟩ => ⟨k, Nat.le_trans hp hk, ?_⟩
    simpa [Extracted, hl] using he

-- The actions before which an event has been announced are still to come, unless it is this one.
theorem Follows.rest {a : Action} (h : s.Follows w (a :: l) id)
    (ha : ∀ payload, a ≠ .publish (some payload)) : s.Follows w l id := by
  refine h.imp_right <| .imp_right fun ⟨payload, hm, hp⟩ => ⟨payload, ?_, hp⟩
  cases hm
  case head    => exact (ha payload rfl).elim
  case tail hm => exact hm

theorem following_write {store : IndexerStore} (h : s.Following w l)
    (hk : ∀ id, (s.store.getDocument id).isSome → (store.getDocument id).isSome)
    (ha : ∀ id, view store id ≠ view s.store id →
      ∃ payload, .publish (some payload) ∈ l ∧ documentIdFromPayload payload = .ok id) :
    Following w { s with store } l := by
  have ⟨ht, hf⟩ := h
  refine ⟨⟨ht.bodies, ht.names, ht.vectored, fun id hi => hk id (ht.existing id hi), ht.offsets,
    ht.last_le, ht.committed_le, ht.position_le⟩, fun id => ?_⟩
  by_cases hv : view store id = view s.store id
  case pos => exact (hf id).frame (fun hs => hv ▸ hs) (Nat.le_refl _) rfl
  case neg => exact .inr <| .inr <| ha id hv

-- The fields of the embedding worker are added to those of the indexer.
theorem following_embed {fields : List (String × Json)} {id : DocumentId} (h : s.Following w l)
    (he : ∀ f ∈ fields, f.fst ∈ embeddingFields) : Following w (s.embed id fields) l := by
  unfold embed
  cases hi : s.index id
  case none => simpa [SearchIndex.updateFields, hi] using h
  case some source =>
    simp only [SearchIndex.updateFields, hi]
    have ⟨ht, hf⟩ := h
    have hn {name} (hn : name ∉ embeddingFields) : fields.lookup name = none :=
      List.lookup_eq_none_iff.mpr fun f hm => by
        simpa using fun e : name = f.fst => hn (e ▸ he f hm)
    have hx (id' : DocumentId) (name : String) :
        SearchIndex.fieldOf (Function.update s.index id (some (source.merge fields))) id' name =
          ((if id' = id then fields.lookup name else none) <|> s.index.fieldOf id' name) := by
      by_cases hd : id' = id
      case pos => subst hd; simp [SearchIndex.fieldOf, SearchSource.merge, hi]
      case neg => simp [SearchIndex.fieldOf, hd]
    have hs (id' : DocumentId) :
        (Function.update s.index id (some (source.merge fields)) id').isSome =
          (s.index id').isSome := by
      by_cases hd : id' = id
      case pos => subst hd; simp [hi]
      case neg => simp [hd]
    have hts (id' : DocumentId) :
        (SearchIndex.upsertAll (Function.update s.index id (some (source.merge fields)))
          (s.batch.map (·.document)) id').isSome = (s.target id').isSome := by
      apply Bool.eq_iff_iff.mpr
      simp only [target, SearchIndex.isSome_upsertAll, hs]
    have hxn {id' : DocumentId} {name : String} (hm : name ∉ embeddingFields) :
        SearchIndex.fieldOf (Function.update s.index id (some (source.merge fields))) id' name =
          s.index.fieldOf id' name := by
      simp [hx, hn hm]
    refine ⟨⟨ht.bodies, ?_, ?_, ?_, ht.offsets, ht.last_le, ht.committed_le, ht.position_le⟩, ?_⟩
    case refine_1 => exact fun id' name hb hm => (hxn hm).trans (ht.names id' name hb hm)
    case refine_2 =>
      intro id' name hm
      have hv := ht.vectored id' name hm
      by_cases hd : id' = id
      case pos => subst hd; simp [hx, hv, SearchSource.merge]
      case neg => simp [hx, hd, hv]
    case refine_3 => exact fun id' hm => ht.existing id' (hts id' ▸ hm)
    case refine_4 =>
      intro id'
      refine (hf id').frame (fun hs => ?_) (Nat.le_refl _) rfl
      refine hs.congr (hts id') fun name hm => ?_
      simp only [target, SearchIndex.fieldOf_upsertAll, hxn hm]

theorem following_publish {message : Option Json} (h : s.Following w (.publish message :: l)) :
    Following w { s with log := s.log ++ [message] } l := by
  have ⟨ht, hf⟩ := h
  have he {k id} (he : s.Extracted k id) :
      Extracted { s with log := s.log ++ [message] } k id := by
    have ⟨payload, hk, hp⟩ := he
    exact ⟨payload, List.getElem?_append_left (List.getElem?_eq_some_iff.mp hk).fst ▸ hk, hp⟩
  refine ⟨⟨ht.bodies, ht.names, ht.vectored, ht.existing, ?_, ht.last_le, ht.committed_le, ?_⟩, ?_⟩
  case refine_1 => exact fun b hb => (ht.offsets b hb).imp_right he
  case refine_2 => exact Nat.le_trans ht.position_le (by simp)
  case refine_3 =>
    intro id
    match hf id with
    | .inl hs                    => exact .inl hs
    | .inr (.inl ⟨k, hk, hx⟩)    => exact .inr <| .inl ⟨k, hk, he hx⟩
    | .inr (.inr ⟨payload, hm, hp⟩) =>
      cases hm
      case head    => exact .inr <| .inl ⟨s.log.length, ht.position_le, payload, by simp, hp⟩
      case tail hm => exact .inr <| .inr ⟨payload, hm, hp⟩

-- The documents of the batch are delivered once more.
theorem following_restart (h : s.Following w l) : s.restart.Following w l := by
  have ⟨ht, hf⟩ := h
  have hr (id : DocumentId) : s.restart.target id = s.index id := rfl
  refine ⟨⟨nofun, ht.names, ht.vectored, ?_, nofun, nofun, Nat.le_refl _, ?_⟩, ?_⟩
  case refine_1 =>
    intro id hm
    exact ht.existing id <| by rw [target, SearchIndex.isSome_upsertAll]; exact .inr (hr id ▸ hm)
  case refine_2 => exact Nat.le_trans ht.committed_le ht.position_le
  case refine_3 =>
    intro id
    by_cases hb : ∃ b ∈ s.batch, b.document.id = id
    case pos =>
      have ⟨b, hb, hd⟩ := hb
      have ⟨hc, he⟩ := ht.offsets b hb
      exact .inr <| .inl ⟨b.offset, hc, hd ▸ he⟩
    case neg =>
      have he : s.restart.target id = s.target id := by
        refine (SearchIndex.upsertAll_of_ne fun d hd => ?_).symm
        have ⟨b, hm, hd⟩ := List.mem_map.mp hd
        exact hd ▸ fun he => hb ⟨b, hm, he⟩
      refine (hf id).frame (fun hs => ?_) ht.committed_le rfl
      exact hs.congr (congrArg Option.isSome he) fun name _ => by simp only [SearchIndex.fieldOf, he]

theorem following_reason {reason : Option FlushReason} (h : s.Following w l) :
    Following w { s with reason } l :=
  have ⟨ht, hf⟩ := h
  ⟨⟨ht.bodies, ht.names, ht.vectored, ht.existing, ht.offsets, ht.last_le, ht.committed_le,
    ht.position_le⟩, hf⟩

theorem following_conclude {reason : FlushReason} (h : s.Following w l) :
    (s.conclude reason).Following w l := by
  unfold conclude
  split
  case isTrue  => exact following_restart h
  case isFalse => exact following_reason h

-- A flush without failures leaves the index as it was going to be.
theorem following_flushed {s' : IndexerSystem} (h : s.Following w l) (hi : s'.index = s.target)
    (hb : s'.batch = []) (hs : s'.store = s.store) (hv : s'.vectors = s.vectors)
    (hl : s'.log = s.log) (hp : s'.position = s.position) (hn : s'.last = s.last)
    (hc : s'.committed ≤ s.position) : s'.Following w l := by
  have ⟨ht, hf⟩ := h
  have he : s'.target = s.target := by simp [target, hi, hb, SearchIndex.upsertAll]
  refine ⟨ht.flushed hi hb hs hv hl hp (hn ▸ ht.last_le) hc, fun id => ?_⟩
  exact (hf id).frame (fun hx => he ▸ hs ▸ hx) (Nat.le_of_eq hp) hl

theorem committed_commitLast (h : s.Tidy) (commits : Bool) :
    (s.commitLast commits).committed ≤ s.position := by
  cases commits
  case false => exact h.committed_le
  case true =>
    cases hl : s.last
    case none   => simpa [commitLast, hl] using h.committed_le
    case some n => simpa [commitLast, hl] using h.last_le n hl

theorem following_flushBatch {replies : Nat → BulkReply} {commits : Bool} {reason : FlushReason}
    (h : s.Following w l) (hr : ∃ report, report.permanentFailures = [] ∧
      (w.flush (s.batch.map (·.document)) replies s.index).fst = .ok report) :
    (s.flushBatch w reason replies commits).Following w l := by
  unfold flushBatch
  split_ifs with hb
  case neg => exact h
  case pos =>
    have hb := List.isEmpty_iff.mp hb
    have hi : s.index = s.target := by simp [target, hb, SearchIndex.upsertAll]
    cases commits
    case false => exact h
    case true  => exact following_flushed h hi hb rfl rfl rfl rfl rfl (committed_commitLast h.left true)
  case neg =>
    obtain ⟨report, hp, hr⟩ := hr
    have hi := flush_ok (Prod.ext hr rfl) hp
    have hc := committed_commitLast h.left commits
    have hf : s.flushOnce w replies commits = commitLast
        { s with index := s.target, batch := [], submitted := s.submitted ++ s.batch } commits := by
      unfold flushOnce
      split
      case h_1 index he =>
        have hi : index = s.target := (congrArg Prod.snd he).symm.trans hi
        rw [hi]
      case h_2 he => cases hr.symm.trans (congrArg Prod.fst he)
    rw [hf]
    cases commits <;> exact following_flushed h rfl rfl rfl rfl rfl rfl rfl hc

end IndexerSystem
