import OsintCore.Indexer.Theorems.Following

open Indexer

namespace IndexerSystem

variable {w : Indexer} {s : IndexerSystem} {l : List Action} {id : DocumentId}

-- An event is delivered: the documents it is about are settled, the others are left alone.
theorem following_delivered {s' : IndexerSystem} (h : s.Following w l) (ht : s'.Tidy)
    (hl : s'.log = s.log) (hp : s'.position = s.position + 1)
    (hs : ∀ id, s.Extracted s.position id → Shows w (view s'.store id) s'.target id)
    (ho : ∀ id, ¬s.Extracted s.position id → Shows w (view s.store id) s.target id →
      Shows w (view s'.store id) s'.target id) : s'.Following w l := by
  refine ⟨ht, fun id => ?_⟩
  by_cases he : s.Extracted s.position id
  case pos => exact .inl <| hs id he
  case neg =>
    match h.right id with
    | .inl hx                 => exact .inl <| ho id he hx
    | .inr (.inr hm)          => exact .inr <| .inr hm
    | .inr (.inl ⟨k, hk, hx⟩) =>
      refine .inr <| .inl ⟨k, ?_, by simpa [Extracted, hl] using hx⟩
      have hne : k ≠ s.position := fun e => he (e ▸ hx)
      omega

-- No document comes of the event, but the index may lose one.
theorem following_skipped {now : Timestamp} {outcome : Except IndexerError PrepareOutcome}
    {index : SearchIndex} (h : s.Following w l) (hk : s.position < s.log.length)
    (hr : ∀ d, outcome ≠ .ok (.ready d)) (hi : ∀ id, index id = s.index id ∨ index id = none)
    (hs : ∀ id, s.Extracted s.position id →
      Shows w (view s.store id) (index.upsertAll (s.batch.map (·.document))) id)
    (ho : ∀ id, ¬s.Extracted s.position id → index id = s.index id) :
    (s.handled now outcome index).Following w l := by
  have hh : s.handled now outcome index = advance
      { s with
        index, vectors := s.keptVectors index
        outcomes := Function.update s.outcomes s.position outcome.toOption } := by
    unfold handled
    split
    case h_1 d => exact (hr d rfl).elim
    case h_2   => rfl
  have ht := h.left
  have hx (id : Uuid) (name : String) :
      index.fieldOf id name = s.index.fieldOf id name ∨ index.fieldOf id name = none :=
    (hi id).imp (fun e => by simp only [SearchIndex.fieldOf, e]) fun e => by
      simp [SearchIndex.fieldOf, e]
  rw [hh]
  refine following_delivered h ⟨ht.bodies, ?_, ht.vectored_kept hi, ?_, ht.offsets, ?_,
    Nat.le_succ_of_le ht.committed_le, hk⟩ rfl rfl hs fun id he hm => ?_
  case refine_1 =>
    intro id name hb he
    cases hx id name
    case inl hx => exact hx.trans (ht.names id name hb he)
    case inr hx => exact hx
  case refine_2 =>
    intro id hm
    refine ht.existing id ?_
    simp only [target, advance, SearchIndex.isSome_upsertAll] at hm ⊢
    exact hm.imp_right fun hm => (hi id).elim (· ▸ hm) fun e => by simp [e] at hm
  case refine_3 =>
    intro n hn
    cases hn
    exact Nat.le_refl _
  case refine_4 =>
    refine hm.congr ?_ fun name _ => ?_
    · apply Bool.eq_iff_iff.mpr
      simp only [target, advance, SearchIndex.isSome_upsertAll, ho id he]
    · have hf : index.fieldOf id name = s.index.fieldOf id name := by
        simp only [SearchIndex.fieldOf, ho id he]
      simp only [target, advance, SearchIndex.fieldOf_upsertAll, hf]

-- The document as it now is comes last in the batch.
theorem following_pushed {now : Timestamp} {v : View} (h : s.Following w l)
    (hk : s.position < s.log.length) (hv : view s.store id = some v)
    (hd : v.document.duplicateOf = none) (he : s.Extracted s.position id)
    (hu : ∀ id', s.Extracted s.position id' → id' = id) :
    (s.handled now (.ok <| .ready ⟨id, bodyOf w v now⟩) s.index).Following w l := by
  have ht := h.left
  have hb := isSome_lookup_bodyOf w v now
  have hx : (s.handled now (.ok <| .ready ⟨id, bodyOf w v now⟩) s.index).target =
      s.target.upsertFields ⟨id, bodyOf w v now⟩ := by
    simp [target, handled, push, advance, SearchIndex.upsertAll]
  refine following_delivered h ⟨?_, ht.names, ht.vectored_kept fun _ => .inl rfl, ?_, ?_, ?_,
    Nat.le_succ_of_le ht.committed_le, hk⟩ rfl rfl (fun id' he' => ?_) fun id' he' hm => ?_
  case refine_1 =>
    intro b hm
    cases List.mem_append.mp hm
    case inl hm => exact ht.bodies b hm
    case inr hm => exact List.mem_singleton.mp hm ▸ hb
  case refine_2 =>
    intro id' hm
    rw [hx, SearchIndex.isSome_upsertFields] at hm
    cases hm
    case inl he =>
      obtain ⟨d, hd, _⟩ := Option.map_eq_some_iff.mp hv
      exact Option.isSome_iff_exists.mpr ⟨d, he ▸ hd⟩
    case inr hm => exact ht.existing id' hm
  case refine_3 =>
    intro b hm
    cases List.mem_append.mp hm
    case inl hm => exact ht.offsets b hm
    case inr hm => exact List.mem_singleton.mp hm ▸ ⟨ht.committed_le, he⟩
  case refine_4 =>
    intro n hn
    cases hn
    exact Nat.le_refl _
  case refine_5 =>
    cases hu id' he'
    rw [hx]
    refine hv ▸ (shows_some hd).mpr ⟨?_, now, fun name hn => ?_⟩
    · rw [SearchIndex.isSome_upsertFields]
      exact .inl rfl
    · rw [SearchIndex.fieldOf_upsertFields, if_pos rfl]
      by_cases hm : name ∈ bodyFields
      case pos =>
        obtain ⟨value, hl⟩ := Option.isSome_iff_exists.mp <| (hb name).mpr hm
        simp [hl]
      case neg => simp [ht.fieldOf_target hm hn]
  case refine_6 =>
    have hne : id ≠ id' := fun e => he' (e ▸ he)
    rw [hx]
    refine hm.congr ?_ fun name _ => ?_
    · apply Bool.eq_iff_iff.mpr
      rw [SearchIndex.isSome_upsertFields, or_iff_right hne]
    · simp [SearchIndex.fieldOf_upsertFields, hne]

theorem following_receive {now : Timestamp} (h : s.Following w l)
    (hc : ∀ id d, s.Extracted s.position id → s.store.getDocument id = some d →
      d.duplicateOf.isSome → ∀ b ∈ s.batch, b.document.id ≠ id) :
    (s.receive w now none).Following w l := by
  unfold receive
  split
  case h_1 => exact h
  case h_2 hm =>
    have ht := h.left
    have hk := (List.getElem?_eq_some_iff.mp hm).fst
    refine following_delivered h ⟨ht.bodies, ht.names, ht.vectored, ht.existing, ht.offsets,
      fun n hn => Nat.le_succ_of_le (ht.last_le n hn), Nat.le_succ_of_le ht.committed_le, hk⟩ rfl rfl
      ?_ fun _ _ hs => hs
    rintro id ⟨payload, he, _⟩
    cases hm.symm.trans he
  case h_3 payload hm =>
    have hk := (List.getElem?_eq_some_iff.mp hm).fst
    apply following_reason
    change (s.handled now (s.handleEnvelope w payload now none).fst
      (s.handleEnvelope w payload now none).snd).Following w l
    cases hd : documentIdFromPayload payload
    case error e =>
      have hn (id) : ¬s.Extracted s.position id := by
        rintro ⟨payload', hm', hd'⟩
        cases hm.symm.trans hm'
        cases hd.symm.trans hd'
      have hh : s.handleEnvelope w payload now none = (.error e, s.index) := by
        simp only [handleEnvelope, hd]
      rw [hh]
      exact following_skipped h hk (by simp) (fun _ => .inl rfl) (fun id he => (hn id he).elim)
        fun _ _ => rfl
    case ok id =>
      have he : s.Extracted s.position id := ⟨payload, hm, hd⟩
      have hu (id') : s.Extracted s.position id' → id' = id := by
        rintro ⟨payload', hm', hd'⟩
        cases hm.symm.trans hm'
        exact Except.ok.inj (hd'.symm.trans hd)
      have hh : s.handleEnvelope w payload now none = w.prepare s.store s.index id now none := by
        simp only [handleEnvelope, hd]
      rw [hh, prepare_eq]
      cases hv : view s.store id
      case none =>
        have hi : s.target id = none := by
          have hg : s.store.getDocument id = none := by simpa [view] using hv
          by_contra hn
          have hg' := h.left.existing id (Option.isSome_iff_ne_none.mpr hn)
          simp [hg] at hg'
        refine following_skipped h hk (by simp) (fun _ => .inl rfl) (fun id' he' => ?_)
          fun _ _ => rfl
        cases hu id' he'
        rw [hv]
        exact hi
      case some v =>
        cases hdup : v.document.duplicateOf
        case none =>
          simp only [hdup, Option.isSome_none, Bool.false_eq_true, if_false]
          exact following_pushed h hk hv hdup he hu
        case some canonical =>
          have hdup : v.document.duplicateOf.isSome := by simp [hdup]
          simp only [hdup, if_true]
          obtain ⟨d, hg, hve⟩ := Option.map_eq_some_iff.mp hv
          have hb := hc id d he hg (by simpa [← hve] using hdup)
          refine following_skipped h hk (by simp) (fun id' => ?_) (fun id' he' => ?_)
            fun id' hn => ?_
          case refine_1 =>
            by_cases hi : id' = id
            case pos => exact .inr (by simp [hi])
            case neg => exact .inl (by simp [hi])
          case refine_2 =>
            cases hu id' he'
            rw [hv, shows_duplicate hdup, SearchIndex.upsertAll_of_ne fun d hd => ?_]
            · simp
            · obtain ⟨b, hm, hd⟩ := List.mem_map.mp hd
              exact hd ▸ hb b hm
          case refine_3 => exact Function.update_of_ne (fun e : id' = id => hn (e ▸ he)) _ _

end IndexerSystem
