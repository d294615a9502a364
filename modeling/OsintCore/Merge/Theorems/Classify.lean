import OsintCore.Merge.Fate

namespace Merge

section Lists

variable {mergedRels survivorRels : List Relationship} {m s : EntityId}

def absorberIn (survivorRels : List Relationship) (m s : EntityId) (r : Relationship) :
    Option Relationship :=
  findAbsorber survivorRels r.relationshipType (repointedEnds r m s).fst (repointedEnds r m s).snd

def collisionOf (survivorRels : List Relationship) (m s : EntityId) (r : Relationship) :
    Option Collision :=
  if BecomesLoop m s r then none
  else (absorberIn survivorRels m s r).map fun b => { absorbed := r, absorber := b }

def IsSafe (survivorRels : List Relationship) (m s : EntityId) (r : Relationship) : Prop :=
  ¬BecomesLoop m s r ∧ absorberIn survivorRels m s r = none

instance {r : Relationship} : Decidable (IsSafe survivorRels m s r) :=
  inferInstanceAs (Decidable (_ ∧ _))

theorem foldl_classifyRelationship (c : Classified) :
    mergedRels.foldl (classifyRelationship survivorRels m s) c =
      { selfLoops    := c.selfLoops ++ mergedRels.filter (BecomesLoop m s ·)
        collisions   := c.collisions ++ mergedRels.filterMap (collisionOf survivorRels m s)
        safeRepoints := c.safeRepoints ++ mergedRels.filter (IsSafe survivorRels m s ·) } := by
  induction mergedRels generalizing c
  case nil => simp
  case cons r rels hi =>
    rw [List.foldl_cons, hi]
    by_cases hl : BecomesLoop m s r
    case pos =>
      have hl' : (repointedEnds r m s).fst = (repointedEnds r m s).snd := hl
      simp [classifyRelationship, collisionOf, IsSafe, hl, hl']
    case neg =>
      have hl' : (repointedEnds r m s).fst ≠ (repointedEnds r m s).snd := hl
      cases ha : absorberIn survivorRels m s r
      all_goals
        have ha' := ha
        simp only [absorberIn] at ha'
        simp [classifyRelationship, collisionOf, IsSafe, hl, hl', ha, ha']

theorem classifyRelationships_eq :
    classifyRelationships mergedRels survivorRels m s =
      { selfLoops    := mergedRels.filter (BecomesLoop m s ·)
        collisions   := mergedRels.filterMap (collisionOf survivorRels m s)
        safeRepoints := mergedRels.filter (IsSafe survivorRels m s ·) } := by
  simp [classifyRelationships, foldl_classifyRelationship]

-- No relationship gets lost, and none is dealt with twice.
theorem classifyRelationships_perm :
    mergedRels.Perm <|
      (classifyRelationships mergedRels survivorRels m s).selfLoops ++
      (classifyRelationships mergedRels survivorRels m s).collisions.map (·.absorbed) ++
      (classifyRelationships mergedRels survivorRels m s).safeRepoints := by
  rw [classifyRelationships_eq]
  induction mergedRels
  case nil => simp
  case cons r rels hi =>
    have hc := hi.cons r
    by_cases hl : BecomesLoop m s r
    case pos => simpa [IsSafe, collisionOf, hl] using hc
    case neg =>
      cases ha : absorberIn survivorRels m s r
      case none =>
        simp only [collisionOf, IsSafe, hl, ha, List.filter_cons, List.filterMap_cons] at hc ⊢
        simpa using hc.trans List.perm_middle.symm
      case some b =>
        simp only [collisionOf, IsSafe, hl, ha, List.filter_cons, List.filterMap_cons] at hc ⊢
        simp only [List.append_assoc] at hc
        simpa using hc.trans List.perm_middle.symm

end Lists

section Table

variable {t : Table Relationship} {mergedRels survivorRels : List Relationship} {m s : EntityId}

-- The collecting queries of a merge, when they are complete.
structure Collected (t : Table Relationship) (mergedRels survivorRels : List Relationship)
    (m s : EntityId) : Prop where
  merged   : ∀ r, r ∈ mergedRels ↔ r ∈ t ∧ r.Touches m
  survivor : ∀ r, r ∈ survivorRels ↔ r ∈ t ∧ r.Touches s
  nodup    : mergedRels.Nodup
  natural  : t.Unique (some <| Relationship.naturalKey ·)

variable (h : Collected t mergedRels survivorRels m s)
include h

theorem Collected.absorberIn_eq_some {a b : Relationship} (ha : a.Touches m) :
    absorberIn survivorRels m s a = some b ↔ b ∈ t ∧ b.naturalKey = repointedKey m s a := by
  unfold absorberIn findAbsorber
  rw [List.find?_eq_some_of_unique, h.survivor]
  · simp only [decide_eq_true_iff, Relationship.naturalKey, repointedKey, Prod.mk.injEq]
    constructor
    case mp  =>
      rintro ⟨⟨hm, _⟩, ht, hs, hd⟩
      exact ⟨hm, hs, ht, hd⟩
    case mpr =>
      rintro ⟨hm, hs, ht, hd⟩
      refine ⟨⟨hm, repointedKey_touches ha ?_⟩, ht, hs, hd⟩
      simp [Relationship.naturalKey, repointedKey, hs, ht, hd]
  · intro b₁ h₁ b₂ h₂ k₁ k₂
    simp only [decide_eq_true_iff] at k₁ k₂
    refine h.natural.eq (h.survivor b₁ |>.mp h₁).left (h.survivor b₂ |>.mp h₂).left rfl ?_
    simp [Relationship.naturalKey, k₁, k₂]

theorem Collected.mem_selfLoops {r : Relationship} :
    r ∈ (classifyRelationships mergedRels survivorRels m s).selfLoops ↔
      r ∈ t ∧ fate t m s r = .selfLoop := by
  simp [classifyRelationships_eq, h.merged, fate_eq_selfLoop, and_assoc]

theorem Collected.mem_collisions {c : Collision} :
    c ∈ (classifyRelationships mergedRels survivorRels m s).collisions ↔
      c.absorbed ∈ t ∧ fate t m s c.absorbed = .absorbed c.absorber := by
  simp only [classifyRelationships_eq, List.mem_filterMap, h.merged, fate_eq_absorbed h.natural,
    collisionOf]
  constructor
  case mp =>
    intro ⟨r, ⟨hm, ht⟩, hc⟩
    split_ifs at hc with hl
    have ⟨b, hb, hc⟩ := Option.map_eq_some_iff.mp hc
    subst hc
    exact ⟨hm, ht, hl, h.absorberIn_eq_some ht |>.mp hb⟩
  case mpr =>
    intro ⟨hm, ht, hl, hb⟩
    exact ⟨c.absorbed, ⟨hm, ht⟩, by simp [hl, h.absorberIn_eq_some ht |>.mpr hb]⟩

theorem Collected.absorberIn_eq_none {a : Relationship} (ha : a.Touches m) :
    absorberIn survivorRels m s a = none ↔ ∀ b ∈ t, b.naturalKey ≠ repointedKey m s a := by
  simp only [Option.eq_none_iff_forall_ne_some, ne_eq, h.absorberIn_eq_some ha, not_and]

theorem Collected.mem_safeRepoints {r : Relationship} :
    r ∈ (classifyRelationships mergedRels survivorRels m s).safeRepoints ↔
      r ∈ t ∧ fate t m s r = .repointed := by
  simp only [classifyRelationships_eq, List.mem_filter, h.merged, fate_eq_repointed, and_assoc,
    and_congr_right_iff]
  exact fun _ ht => by simp [IsSafe, h.absorberIn_eq_none ht]

theorem Collected.collisions_nodup : ((classifyRelationships mergedRels survivorRels m s).collisions
    |>.map (·.absorbed.id)).Nodup := by
  have hp := @classifyRelationships_perm mergedRels survivorRels m s |>.map Relationship.id
  have hn := hp.nodup_iff.mp <| h.nodup.map_on fun a ha b hb he =>
    Table.eq_of_key_eq (h.merged a |>.mp ha).left (h.merged b |>.mp hb).left he
  simp only [List.map_append, List.map_map] at hn
  exact hn.of_append_left.of_append_right

end Table

end Merge
