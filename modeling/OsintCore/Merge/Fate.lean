import OsintCore.Merge.Service

namespace Merge

-- What a merge does to a relationship, seen from the graph: the merge identifies the entity `m` with
-- the survivor `s`, so that a relationship of `m` becomes a self-loop, falls together with another
-- relationship, or just gets a new end.
inductive Fate
  | kept
  | selfLoop
  | absorbed (absorber : Relationship)
  | repointed
  | absorbs (absorbed : Relationship)

-- The natural key of a relationship after `m` has been identified with `s`.
def repointedKey (m s : EntityId) (r : Relationship) : ObjectId × RelationshipType × ObjectId :=
  ((repointedEnds r m s).fst, r.relationshipType, (repointedEnds r m s).snd)

def BecomesLoop (m s : EntityId) (r : Relationship) : Prop :=
  (repointedEnds r m s).fst = (repointedEnds r m s).snd

instance {m s : EntityId} {r : Relationship} : Decidable (BecomesLoop m s r) :=
  inferInstanceAs (Decidable (_ = _))

def fate (t : Table Relationship) (m s : EntityId) (r : Relationship) : Fate :=
  if r.Touches m then
    if BecomesLoop m s r then
      .selfLoop
    else match t.rows.find? fun b => b.naturalKey = repointedKey m s r with
      | some b => .absorbed b
      | none   => .repointed
  else
    match t.rows.find? fun a => a.Touches m ∧ ¬BecomesLoop m s a ∧
      repointedKey m s a = r.naturalKey with
    | some a => .absorbs a
    | none   => .kept

def repointedRow (m s : EntityId) (now : Timestamp) (r : Relationship) : Relationship :=
  { r with
    sourceObjectId := (repointedEnds r m s).fst
    targetObjectId := (repointedEnds r m s).snd
    updatedAt      := now }

def mergedRelationship (t : Table Relationship) (m s : EntityId) (now : Timestamp)
    (r : Relationship) : Option Relationship :=
  match fate t m s r with
  | .kept                   => some r
  | .selfLoop | .absorbed _ => none
  | .repointed              => some (repointedRow m s now r)
  | .absorbs a              => some (Tx.absorbedInto a r now)

-- The evidence of a relationship goes where the relationship goes.
def mergedEvidence (t : Table Relationship) (m s : EntityId) (e : RelationshipEvidence) :
    Option RelationshipEvidence :=
  match (t.get? e.relationshipId).map (fate t m s) with
  | some .selfLoop     => none
  | some (.absorbed b) => some { e with relationshipId := b.id }
  | _                  => some e

section Keys

variable {m s : EntityId} {a b r : Relationship}

@[simp]
theorem repointedRow_id {now : Timestamp} : (repointedRow m s now r).id = r.id :=
  rfl

@[simp]
theorem repointedRow_naturalKey {now : Timestamp} :
    (repointedRow m s now r).naturalKey = repointedKey m s r :=
  rfl

@[simp]
theorem Tx.absorbedInto_id {now : Timestamp} : (Tx.absorbedInto a b now).id = b.id :=
  rfl

@[simp]
theorem Tx.absorbedInto_naturalKey {now : Timestamp} :
    (Tx.absorbedInto a b now).naturalKey = b.naturalKey :=
  rfl

theorem repointedKey_not_touches (h : m ≠ s) (hk : r.naturalKey = repointedKey m s a) :
    ¬r.Touches m := by
  simp only [Relationship.naturalKey, repointedKey, repointedEnds, Prod.mk.injEq] at hk
  simp only [Relationship.Touches]
  grind

theorem repointedRow_not_touches {now : Timestamp} (h : m ≠ s) :
    ¬(repointedRow m s now r).Touches m :=
  repointedKey_not_touches (a := r) h rfl

theorem repointedKey_touches (ht : a.Touches m) (hk : r.naturalKey = repointedKey m s a) :
    r.Touches s := by
  simp only [Relationship.naturalKey, repointedKey, repointedEnds, Prod.mk.injEq] at hk
  simp only [Relationship.Touches] at ht ⊢
  grind

-- Apart from self-loops, no two relationships of `m` fall together by the merge.
theorem repointedKey_injective (ha : a.Touches m) (hb : b.Touches m) (hl : ¬BecomesLoop m s a)
    (h : repointedKey m s a = repointedKey m s b) : a.naturalKey = b.naturalKey := by
  simp only [Relationship.naturalKey, repointedKey, repointedEnds, BecomesLoop, Prod.mk.injEq,
    Relationship.Touches] at *
  grind

end Keys

section Fates

variable {t : Table Relationship} {m s : EntityId} {a b r : Relationship}

theorem find?_naturalKey (hu : t.Unique (some <| Relationship.naturalKey ·))
    {k : ObjectId × RelationshipType × ObjectId} :
    t.rows.find? (fun b => b.naturalKey = k) = some b ↔ b ∈ t ∧ b.naturalKey = k := by
  simpa using t.find?_eq_some (p := fun b => b.naturalKey = k) (a := b) fun a ha b hb ka kb =>
    hu.eq ha hb (congrArg some <| by simpa using ka) (congrArg some <| by simpa using kb)

theorem find?_repointedKey (hu : t.Unique (some <| Relationship.naturalKey ·))
    {k : ObjectId × RelationshipType × ObjectId} :
    t.rows.find? (fun a => a.Touches m ∧ ¬BecomesLoop m s a ∧ repointedKey m s a = k) = some a ↔
      a ∈ t ∧ a.Touches m ∧ ¬BecomesLoop m s a ∧ repointedKey m s a = k := by
  rw [t.find?_eq_some, decide_eq_true_iff]
  intro a ha b hb pa pb
  have ⟨hat, hal, hak⟩ := of_decide_eq_true pa
  have ⟨hbt, hbl, hbk⟩ := of_decide_eq_true pb
  exact hu.eq ha hb (congrArg some <| repointedKey_injective hat hbt hal (hak.trans hbk.symm)) rfl

theorem fate_of_not_touches (h : ¬r.Touches m) :
    fate t m s r = .kept ∨ ∃ a, fate t m s r = .absorbs a := by
  unfold fate
  rw [if_neg h]
  split
  · exact .inr ⟨_, rfl⟩
  · exact .inl rfl

theorem fate_eq_selfLoop : fate t m s r = .selfLoop ↔ r.Touches m ∧ BecomesLoop m s r := by
  unfold fate
  split_ifs <;> try split
  all_goals simp_all

theorem fate_eq_absorbed (hu : t.Unique (some <| Relationship.naturalKey ·)) :
    fate t m s r = .absorbed b ↔ r.Touches m ∧ ¬BecomesLoop m s r ∧ b ∈ t ∧
      b.naturalKey = repointedKey m s r := by
  rw [← find?_naturalKey hu]
  unfold fate
  split_ifs <;> try split
  all_goals simp_all [-List.find?_eq_none]

theorem fate_eq_repointed : fate t m s r = .repointed ↔ r.Touches m ∧ ¬BecomesLoop m s r ∧
    ∀ b ∈ t, b.naturalKey ≠ repointedKey m s r := by
  have hn := t.find?_eq_none (p := fun b => b.naturalKey = repointedKey m s r)
  simp only [decide_eq_true_iff] at hn
  simp only [ne_eq, ← hn]
  unfold fate
  split_ifs <;> try split
  all_goals simp_all [-List.find?_eq_none]

theorem fate_eq_absorbs (hu : t.Unique (some <| Relationship.naturalKey ·)) :
    fate t m s r = .absorbs a ↔ ¬r.Touches m ∧ a ∈ t ∧ a.Touches m ∧ ¬BecomesLoop m s a ∧
      repointedKey m s a = r.naturalKey := by
  rw [← find?_repointedKey hu]
  unfold fate
  split_ifs <;> try split
  all_goals simp_all [-List.find?_eq_none]

theorem fate_eq_kept : fate t m s r = .kept ↔ ¬r.Touches m ∧
    ∀ a ∈ t, a.Touches m → ¬BecomesLoop m s a → repointedKey m s a ≠ r.naturalKey := by
  have hn := t.find?_eq_none
    (p := fun a => a.Touches m ∧ ¬BecomesLoop m s a ∧ repointedKey m s a = r.naturalKey)
  simp only [decide_eq_true_iff, not_and] at hn
  simp only [ne_eq, ← hn]
  unfold fate
  split_ifs <;> try split
  all_goals simp_all [-List.find?_eq_none]

-- An absorber and what it absorbs name each other.
theorem fate_absorbs_iff_absorbed (hu : t.Unique (some <| Relationship.naturalKey ·)) (h : m ≠ s)
    (ha : a ∈ t) (hb : b ∈ t) : fate t m s b = .absorbs a ↔ fate t m s a = .absorbed b := by
  rw [fate_eq_absorbs hu, fate_eq_absorbed hu]
  constructor
  case mp  => exact fun ⟨_, _, ht, hl, hk⟩ => ⟨ht, hl, hb, hk.symm⟩
  case mpr => exact fun ⟨ht, hl, _, hk⟩ => ⟨repointedKey_not_touches h hk, ha, ht, hl, hk.symm⟩

theorem fate_absorbs_of_absorbed (hu : t.Unique (some <| Relationship.naturalKey ·)) (h : m ≠ s)
    (ha : a ∈ t) (hf : fate t m s a = .absorbed b) : b ∈ t ∧ fate t m s b = .absorbs a := by
  have ⟨_, _, hb, _⟩ := fate_eq_absorbed hu |>.mp hf
  exact ⟨hb, fate_absorbs_iff_absorbed hu h ha hb |>.mpr hf⟩

theorem fate_absorbed_of_absorbs (hu : t.Unique (some <| Relationship.naturalKey ·)) (h : m ≠ s)
    (hb : b ∈ t) (hf : fate t m s b = .absorbs a) : a ∈ t ∧ fate t m s a = .absorbed b := by
  have ⟨_, ha, _⟩ := fate_eq_absorbs hu |>.mp hf
  exact ⟨ha, fate_absorbs_iff_absorbed hu h ha hb |>.mp hf⟩

end Fates

end Merge
