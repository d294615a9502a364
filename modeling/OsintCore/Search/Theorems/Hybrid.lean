import OsintCore.Search.Hybrid

namespace Hybrid

section Entry

variable {ranks : List Hit} {id j : String} {f : Hit → Hit}

def lookup (ranks : List Hit) (j : String) : Option Hit :=
  ranks.find? (·.id = j)

theorem map_id_entry (hf : ∀ hit, (f hit).id = hit.id) : (entry ranks id f).map (·.id) =
    if id ∈ ranks.map (·.id) then ranks.map (·.id) else ranks.map (·.id) ++ [id] := by
  unfold entry
  have hm : ranks.any (·.id = id) ↔ id ∈ ranks.map (·.id) := by simp
  by_cases h : id ∈ ranks.map (·.id)
  case pos =>
    rw [if_pos (hm.mpr h), if_pos h, List.map_map]
    refine List.map_congr_left fun hit _ => ?_
    simp only [Function.comp_apply]
    split_ifs
    case pos => exact hf hit
    case neg => rfl
  case neg =>
    rw [if_neg (mt hm.mp h), if_neg h]
    simp [hf]

theorem lookup_map (hf : ∀ hit, (f hit).id = hit.id) :
    lookup (ranks.map fun hit => if hit.id = id then f hit else hit) j =
      if j = id then (lookup ranks id).map f else lookup ranks j := by
  have hi : ∀ hit : Hit, (if hit.id = id then f hit else hit).id = hit.id := by
    intro hit
    split_ifs
    case pos => exact hf hit
    case neg => rfl
  induction ranks
  case nil => simp [lookup]
  case cons hit ranks ih =>
    simp only [lookup, List.map_cons, List.find?_cons, hi] at ih ⊢
    by_cases hj : hit.id = j
    case pos =>
      by_cases he : hit.id = id
      case pos => simp [← hj, ← he]
      case neg => simp [← hj, he]
    case neg =>
      by_cases he : hit.id = id
      case pos =>
        have hn : ¬id = j := fun h => hj (he.trans h)
        simp [he, hn, Ne.symm hn, ih]
      case neg => simp [hj, he, ih]

theorem lookup_entry (hf : ∀ hit, (f hit).id = hit.id) : lookup (entry ranks id f) j =
    if j = id then some (f <| (lookup ranks id).getD { id }) else lookup ranks j := by
  unfold entry
  split_ifs with ha hj hj
  case pos =>
    rw [lookup_map hf, if_pos hj]
    have hs : (lookup ranks id).isSome := by simpa [lookup] using ha
    have ⟨hit, hl⟩ := Option.isSome_iff_exists.mp hs
    simp [hl]
  case neg => rw [lookup_map hf, if_neg hj]
  case pos =>
    have hn : lookup ranks id = none := by simpa [lookup] using ha
    simp only [lookup] at hn ⊢
    simp [List.find?_append, hn, hf, hj]
  case neg => simp [lookup, List.find?_append, hf, Ne.symm hj]

end Entry

-- The rank of an identifier is its first position.
def rankIn (l : List String) (id : String) : Option Nat :=
  if id ∈ l then some (rankAt (l.idxOf id)) else none

def hitOf (bm25 vector : List String) (id : String) : Hit where
  id         := id
  bm25Rank   := rankIn bm25 id
  vectorRank := rankIn vector id

-- The entries are those of the identifiers which have been seen.
structure Ranked (ranks : List Hit) (bm25 vector : List String) : Prop where
  nodup  : (ranks.map (·.id)).Nodup
  lookup : ∀ j, lookup ranks j =
    if j ∈ bm25 ∨ j ∈ vector then some (hitOf bm25 vector j) else none

section Ranks

variable {ranks : List Hit} {bm25 vector l : List String} {id j : String}

theorem rankIn_concat : rankIn (l ++ [id]) j =
    if j = id then some ((rankIn l id).getD (rankAt l.length)) else rankIn l j := by
  unfold rankIn
  by_cases hj : j = id
  case pos =>
    by_cases hm : id ∈ l
    case pos => simp [hj, hm, List.idxOf_append]
    case neg => simp [hj, hm, List.idxOf_append]
  case neg =>
    by_cases hm : j ∈ l
    case pos => simp [hj, hm, List.idxOf_append]
    case neg => simp [hj, hm]

theorem nodup_entry {f : Hit → Hit} (hf : ∀ hit, (f hit).id = hit.id)
    (h : (ranks.map (·.id)).Nodup) : ((entry ranks id f).map (·.id)).Nodup := by
  rw [map_id_entry hf]
  split_ifs with hm
  case pos => exact h
  case neg => exact List.nodup_append.mpr ⟨h, List.nodup_singleton _, by simpa using hm⟩

theorem getD_hitOf : ((if id ∈ bm25 ∨ id ∈ vector then some (hitOf bm25 vector id) else none).getD
    { id } : Hit) = hitOf bm25 vector id := by
  split_ifs with h
  case pos => rfl
  case neg => simp [hitOf, rankIn, (not_or.mp h).left, (not_or.mp h).right]

theorem Ranked.rankBm25 (h : Ranked ranks bm25 vector) :
    Ranked (rankBm25 ranks (id, bm25.length)) (bm25 ++ [id]) vector := by
  have hf : ∀ hit : Hit, (if hit.bm25Rank.isNone then
      { hit with bm25Rank := some (rankAt bm25.length) } else hit).id = hit.id := by
    intro hit
    split_ifs <;> rfl
  refine ⟨nodup_entry hf h.nodup, fun j => ?_⟩
  rw [Hybrid.rankBm25, lookup_entry hf, h.lookup, h.lookup, getD_hitOf]
  by_cases hj : j = id
  case neg => simp [hj, hitOf, rankIn_concat]
  case pos =>
    subst hj
    cases hr : rankIn bm25 j
    case none   => simp [hitOf, rankIn_concat, hr]
    case some r => simp [hitOf, rankIn_concat, hr]

theorem Ranked.rankVector (h : Ranked ranks bm25 vector) :
    Ranked (rankVector ranks (id, vector.length)) bm25 (vector ++ [id]) := by
  have hf : ∀ hit : Hit, (if hit.vectorRank.isNone then
      { hit with vectorRank := some (rankAt vector.length) } else hit).id = hit.id := by
    intro hit
    split_ifs <;> rfl
  refine ⟨nodup_entry hf h.nodup, fun j => ?_⟩
  rw [Hybrid.rankVector, lookup_entry hf, h.lookup, h.lookup, getD_hitOf]
  by_cases hj : j = id
  case neg => simp [hj, hitOf, rankIn_concat]
  case pos =>
    subst hj
    cases hr : rankIn vector j
    case none   => simp [hitOf, rankIn_concat, hr]
    case some r => simp [hitOf, rankIn_concat, hr]

theorem ranked_ranksOf : Ranked (ranksOf bm25 vector) bm25 vector := by
  have hb : Ranked (bm25.zipIdx.foldl Hybrid.rankBm25 []) bm25 [] := by
    induction bm25 using List.reverseRecOn
    case nil => exact ⟨List.nodup_nil, fun _ => rfl⟩
    case append_singleton l id hi =>
      rw [List.zipIdx_append, List.foldl_append]
      simpa using hi.rankBm25
  unfold ranksOf
  induction vector using List.reverseRecOn
  case nil => exact hb
  case append_singleton l id hi =>
    rw [List.zipIdx_append, List.foldl_append]
    simpa using hi.rankVector

theorem mem_ranksOf {hit : Hit} : hit ∈ ranksOf bm25 vector ↔
    (hit.id ∈ bm25 ∨ hit.id ∈ vector) ∧ hit = hitOf bm25 vector hit.id := by
  have h : Ranked (ranksOf bm25 vector) bm25 vector := ranked_ranksOf
  constructor
  case mp =>
    intro hm
    have hs : (lookup (ranksOf bm25 vector) hit.id).isSome := by
      simpa [lookup] using ⟨hit, hm, rfl⟩
    have ⟨found, hf⟩ := Option.isSome_iff_exists.mp hs
    have hi : found.id = hit.id := by simpa using List.find?_some hf
    have he : found = hit := List.inj_on_of_nodup_map h.nodup (List.mem_of_find?_eq_some hf) hm hi
    rw [h.lookup, he] at hf
    split_ifs at hf with hj
    exact ⟨hj, (Option.some.inj hf).symm⟩
  case mpr =>
    intro ⟨hj, he⟩
    have hl := h.lookup hit.id
    rw [if_pos hj, ← he] at hl
    exact List.mem_of_find?_eq_some hl

end Ranks

section Fused

variable {bm25 vector l : List String} {bm25Weight vectorWeight weight : Rat} {hits : List FusedHit}

def fusedKey (hit : FusedHit) : ℚᵒᵈ ×ₗ String :=
  toLex (OrderDual.toDual hit.score, hit.id)

theorem fusedOrder_eq (a b : FusedHit) : fusedOrder a b = compare (fusedKey a) (fusedKey b) := by
  have hd : compare (OrderDual.toDual a.score) (OrderDual.toDual b.score) =
      compare b.score a.score := by
    rcases lt_trichotomy a.score b.score with h | h | h
    case inl =>
      have hd : OrderDual.toDual b.score < OrderDual.toDual a.score := OrderDual.toDual_lt_toDual.mpr h
      exact (compare_gt_iff_gt.mpr hd).trans (compare_gt_iff_gt.mpr h).symm
    case inr.inl => rw [h, compare_eq_iff_eq.mpr rfl, compare_eq_iff_eq.mpr rfl]
    case inr.inr =>
      have hd : OrderDual.toDual a.score < OrderDual.toDual b.score := OrderDual.toDual_lt_toDual.mpr h
      exact (compare_lt_iff_lt.mpr hd).trans (compare_lt_iff_lt.mpr h).symm
  calc fusedOrder a b
    _ = (compare (OrderDual.toDual a.score) (OrderDual.toDual b.score)).then
          (compare a.id b.id) := by rw [hd, fusedOrder]
    _ = compare (fusedKey a) (fusedKey b) := by
      simp only [fusedKey, Prod.Lex.compare_def, compareLex, compareOn, ofLex_toLex]

theorem fusedKey_lt {a b : FusedHit} : fusedKey a < fusedKey b ↔
    b.score < a.score ∨ a.score = b.score ∧ a.id < b.id := by
  simp [fusedKey, Prod.Lex.toLex_lt_toLex]

theorem nodup_fusedKey (h : (hits.map (·.id)).Nodup) : (hits.map fusedKey).Nodup := by
  refine List.Nodup.of_map (fun k : ℚᵒᵈ ×ₗ String => (ofLex k).snd) ?_
  rwa [List.map_map]

theorem map_id_fused {ranks : List Hit} :
    (ranks.map (fusedHit bm25Weight vectorWeight)).map (·.id) = ranks.map (·.id) := by
  rw [List.map_map]
  rfl

theorem fuseRanks_perm : (fuseRanks bm25 vector bm25Weight vectorWeight).Perm
    ((ranksOf bm25 vector).map (fusedHit bm25Weight vectorWeight)) :=
  List.sortBy_perm

theorem nodup_fused : (((ranksOf bm25 vector).map (fusedHit bm25Weight vectorWeight)).map
    fusedKey).Nodup :=
  nodup_fusedKey <| map_id_fused ▸ ranked_ranksOf.nodup

theorem mem_fuseRanks {hit : FusedHit} : hit ∈ fuseRanks bm25 vector bm25Weight vectorWeight ↔
    (hit.id ∈ bm25 ∨ hit.id ∈ vector) ∧
      hit = fusedHit bm25Weight vectorWeight (hitOf bm25 vector hit.id) := by
  rw [fuseRanks_perm.mem_iff, List.mem_map]
  constructor
  case mp =>
    intro ⟨h, hm, he⟩
    have ⟨hj, hh⟩ := mem_ranksOf.mp hm
    subst he
    exact ⟨hj, congrArg _ hh⟩
  case mpr =>
    intro ⟨hj, he⟩
    exact ⟨hitOf bm25 vector hit.id, mem_ranksOf.mpr ⟨hj, rfl⟩, he.symm⟩

-- The place of an identifier in a list, the last of all if it is not there.
def place (l : List String) (id : String) : WithTop Nat :=
  if id ∈ l then (l.idxOf id : Nat) else ⊤

theorem mem_congr {l' : List String} {id : String} (h : place l' id = place l id) :
    id ∈ l' ↔ id ∈ l := by
  have hp (l : List String) : id ∈ l ↔ place l id ≠ ⊤ := by
    unfold place
    split_ifs with hm
    case pos => exact iff_of_true hm (WithTop.coe_ne_top)
    case neg => exact iff_of_false hm fun h => h rfl
  rw [hp l', hp l, h]

theorem rankIn_congr {l' : List String} {id : String} (h : place l' id = place l id) :
    rankIn l' id = rankIn l id := by
  have hm := mem_congr h
  unfold place at h
  unfold rankIn
  by_cases hi : id ∈ l
  case neg => rw [if_neg hi, if_neg (mt hm.mp hi)]
  case pos =>
    rw [if_pos hi, if_pos (hm.mpr hi)] at h ⊢
    have he : l'.idxOf id = l.idxOf id := WithTop.coe_injective h
    rw [he]

theorem share_mono {a b : String} (hw : 0 ≤ weight) (h : place l a ≤ place l b) :
    share weight (rankIn l b) ≤ share weight (rankIn l a) := by
  have hpos (r : Nat) : (0 : ℚ) < rrfK + r := by unfold rrfK; positivity
  unfold place at h
  unfold rankIn
  by_cases hb : b ∈ l
  case neg =>
    rw [if_neg hb]
    split_ifs
    case pos => exact div_nonneg hw (hpos _).le
    case neg => exact le_rfl
  case pos =>
    have ha : a ∈ l := by
      by_contra ha
      rw [if_neg ha, if_pos hb] at h
      exact absurd h (WithTop.coe_lt_top _).not_ge
    rw [if_pos ha, if_pos hb] at h ⊢
    have hr : rankAt (l.idxOf a) ≤ rankAt (l.idxOf b) :=
      min_le_min_right _ <| Nat.succ_le_succ <| WithTop.coe_le_coe.mp h
    have hr : rrfK + (rankAt (l.idxOf a) : ℚ) ≤ rrfK + (rankAt (l.idxOf b) : ℚ) := by
      gcongr
    exact div_le_div_of_nonneg_left hw (hpos _) hr

end Fused

-- What a fusion of two rankings is.
structure Fuses (bm25 vector : List String) (bm25Weight vectorWeight : Rat)
    (out : List FusedHit) : Prop where
  once      : (out.map (·.id)).Nodup
  ids       : ∀ id, id ∈ out.map (·.id) ↔ id ∈ bm25 ∨ id ∈ vector
  ranks     : ∀ hit ∈ out, hit.bm25Rank = rankIn bm25 hit.id ∧ hit.vectorRank = rankIn vector hit.id
  score     : ∀ hit ∈ out,
    hit.score = share bm25Weight (rankIn bm25 hit.id) + share vectorWeight (rankIn vector hit.id)
  sorted    : out.Pairwise fun a b => b.score < a.score ∨ a.score = b.score ∧ a.id < b.id
  -- Neither the order of a hash map nor what follows a first occurrence makes a difference.
  anyOrder  : ∀ order : List Hit, order.Perm (ranksOf bm25 vector) →
    sortFused (order.map (fusedHit bm25Weight vectorWeight)) = out
  firsts    : ∀ bm25' vector', (∀ id, place bm25' id = place bm25 id) →
    (∀ id, place vector' id = place vector id) →
      fuseRanks bm25' vector' bm25Weight vectorWeight = out
  dominance : 0 ≤ bm25Weight → 0 ≤ vectorWeight → ∀ a b, [a, b].Sublist out →
    place bm25 b.id ≤ place bm25 a.id → place vector b.id ≤ place vector a.id →
      a.score = b.score ∧ a.id < b.id

theorem fuseRanks_fuses (bm25 vector : List String) (bm25Weight vectorWeight : Rat) :
    Fuses bm25 vector bm25Weight vectorWeight (fuseRanks bm25 vector bm25Weight vectorWeight) := by
  have hsorted : (fuseRanks bm25 vector bm25Weight vectorWeight).Pairwise
      fun a b => b.score < a.score ∨ a.score = b.score ∧ a.id < b.id :=
    (List.sortBy_strict fusedOrder_eq nodup_fused).imp fusedKey_lt.mp
  have hscore : ∀ hit ∈ fuseRanks bm25 vector bm25Weight vectorWeight,
      hit.score = share bm25Weight (rankIn bm25 hit.id) +
        share vectorWeight (rankIn vector hit.id) :=
    fun hit hm => congrArg FusedHit.score (mem_fuseRanks.mp hm).right
  constructor
  case score  => exact hscore
  case sorted => exact hsorted
  case once =>
    rw [(fuseRanks_perm.map _).nodup_iff, map_id_fused]
    exact ranked_ranksOf.nodup
  case ids =>
    intro id
    rw [List.mem_map]
    constructor
    case mp  => exact fun ⟨hit, hm, he⟩ => he ▸ (mem_fuseRanks.mp hm).left
    case mpr =>
      exact fun hj => ⟨fusedHit _ _ (hitOf bm25 vector id), mem_fuseRanks.mpr ⟨hj, rfl⟩, rfl⟩
  case ranks =>
    intro hit hm
    have he := (mem_fuseRanks.mp hm).right
    exact ⟨congrArg (·.bm25Rank) he, congrArg (·.vectorRank) he⟩
  case anyOrder =>
    intro order hp
    exact List.sortBy_congr fusedOrder_eq nodup_fused <| hp.map _
  case firsts =>
    intro bm25' vector' hb hv
    have hm (hit : Hit) : hit ∈ ranksOf bm25' vector' ↔ hit ∈ ranksOf bm25 vector := by
      simp only [mem_ranksOf, hitOf, rankIn_congr (hb _), rankIn_congr (hv _), mem_congr (hb _),
        mem_congr (hv _)]
    have hp : (ranksOf bm25' vector').Perm (ranksOf bm25 vector) :=
      (List.perm_ext_iff_of_nodup ranked_ranksOf.nodup.of_map ranked_ranksOf.nodup.of_map).mpr hm
    exact List.sortBy_congr fusedOrder_eq nodup_fused <| hp.map _
  case dominance =>
    intro hb hv a b hs hpb hpv
    have hab := List.pairwise_pair.mp <| hsorted.sublist hs
    have ha := hscore a <| hs.subset List.mem_cons_self
    have hb' := hscore b <| hs.subset <| List.mem_cons_of_mem _ List.mem_cons_self
    have hle : a.score ≤ b.score := by
      rw [ha, hb']
      exact add_le_add (share_mono hb hpb) (share_mono hv hpv)
    exact hab.resolve_left hle.not_gt

-- More results than a rank can count
def manyResults : List String :=
  List.replicate (2 ^ 32) "a" ++ ["b"]

theorem not_fuseRanks_position : ¬∀ (bm25 vector : List String) (bm25Weight vectorWeight : Rat),
    ∀ hit ∈ fuseRanks bm25 vector bm25Weight vectorWeight, hit.id ∈ bm25 →
      hit.bm25Rank = some (bm25.idxOf hit.id + 1) := by
  intro h
  have hb : "b" ∈ manyResults := List.mem_append_right _ <| List.mem_singleton_self _
  have hi : manyResults.idxOf "b" = 2 ^ 32 := by
    have hn : "b" ∉ List.replicate (2 ^ 32) "a" := fun hm =>
      absurd (List.eq_of_mem_replicate hm) (by decide)
    rw [manyResults, List.idxOf_append_of_notMem hn, List.length_replicate]
    simp
  have hr := h manyResults [] 1 1 (fusedHit 1 1 (hitOf manyResults [] "b"))
    (mem_fuseRanks.mpr ⟨.inl hb, rfl⟩) hb
  have hr : some (rankAt (2 ^ 32)) = some (2 ^ 32 + 1) := by
    simpa [fusedHit, hitOf, rankIn, hb, hi] using hr
  exact absurd hr (by decide)

end Hybrid
