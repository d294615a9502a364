import OsintCore.Merge.Theorems.Fifo

namespace Merge

namespace Twice

variable {σ₀ σ₁ σ₂ σ₃ σ₄ : Store} {s a b : Entity} {c₁ c₂ : Context} {h₁ h₂ : MergeHistory}
  {now now' : Timestamp} (ht : Twice σ₀ σ₁ σ₂ s a b c₁ c₂ h₁ h₂)
include ht

section Accepted

variable (hid : h₂.id ≠ h₁.id)
include hid

theorem get_h₁ : σ₂.mergeHistory.get? h₁.id = some h₁ := by
  simp [ht.second.mergeHistory, ht.first.mergeHistory, hid]

omit hid in
theorem get_h₂ : σ₂.mergeHistory.get? h₂.id = some h₂ := by
  simp [ht.second.mergeHistory]

theorem lifo_get_h₁ (hu₂ : Undone σ₂ σ₃ h₂ now) : σ₃.mergeHistory.get? h₁.id = some h₁ := by
  simp [hu₂.mergeHistory, hid, ht.get_h₁ hid]

theorem fifo_get_h₂ (hu₁ : Undone σ₂ σ₃ h₁ now) : σ₃.mergeHistory.get? h₂.id = some h₂ := by
  simp [hu₁.mergeHistory, hid.symm, ht.get_h₂]

-- The first merge can be undone first if the entities have no relationship with each other.
theorem fifo_progress (hn : ¬Adjacent σ₀ a.id b.id) (now now' : Timestamp) : ∃ σ₃ σ₄ ch ch',
    undoMerge σ₂ h₁.id now = .ok (σ₃, ch) ∧ undoMerge σ₃ h₂.id now' = .ok (σ₄, ch') := by
  have ⟨⟨σ₃, ch⟩, hu₁⟩ := (ht.undoable_first hn).undoInTx_progress ht.first ht.ne_as now
  have hu₁' := undoInTx_undone hu₁
  have ⟨⟨σ₄, ch'⟩, hu₂⟩ :=
    (ht.undoable_second hn hu₁').undoInTx_progress ht.second ht.ne_bs now'
  have ⟨e, hge, he⟩ := hu₁'.entities
  have hi : e.id = a.id := (Table.get?_key hge).trans ht.first.mergedId
  refine ⟨σ₃, σ₄, ch, ch', undoMerge_eq_ok.mpr ⟨h₁, s, _, ht.get_h₁ hid, ht.first.undoneAt, ?_,
    ht.s_unmerged, hge, hu₁⟩, undoMerge_eq_ok.mpr ⟨h₂, s,
    { b with mergedInto := some s.id }, ht.fifo_get_h₂ hid hu₁', ht.second.undoneAt, ?_,
    ht.s_unmerged, ?_, hu₂⟩⟩
  · simp [ht.first.survivorId, ht.second.entities, ht.first.entities, ht.ne_as, ht.ne_bs, ht.get_s]
  · simp [ht.second.survivorId, he, hi, ht.second.entities, ht.first.entities, ht.ne_as, ht.ne_bs,
      ht.get_s]
  · simp [ht.second.mergedId, he, hi, ht.second.entities, ht.ne_ab]

end Accepted

end Twice

-- The relationship `x` adds nothing to the aggregates of the relationship which absorbs it.
def AddsNothing (x r : Relationship) : Prop :=
  x.evidenceCount = 0 ∧ x.confidence ≤ r.confidence ∧ r.firstSeen ≤ x.firstSeen ∧
    x.lastSeen ≤ r.lastSeen

theorem addsNothing_iff {x r : Relationship} (now : Timestamp) :
    Tx.snapshotOf (Tx.absorbedInto x r now) = Tx.snapshotOf r ↔ AddsNothing x r := by
  have hc : r.evidenceCount + x.evidenceCount = r.evidenceCount ↔ x.evidenceCount = 0 := by
    simp
  simp [Tx.snapshotOf, Tx.absorbedInto, AddsNothing, hc]

-- No relationship of the survivor absorbs relationships of both entities, but for ones of `a` which
-- add nothing to it. It does not matter if `a` and `b` have a relationship with each other.
def OrderFree (σ : Store) (s a b : EntityId) : Prop :=
  Adjacent σ a b ∨ ∀ x ∈ σ.relationships, ∀ y ∈ σ.relationships, ∀ r,
    fate σ.relationships a s x = .absorbed r → fate σ.relationships b s y = .absorbed r →
      AddsNothing x r

-- Two histories are undone one after the other, and both undos are accepted.
def UndoneInOrder (σ σ'' : Store) (id id' : MergeHistoryId) : Prop :=
  ∃ now now' σ' changes changes', undoMerge σ id now = .ok (σ', changes) ∧
    undoMerge σ' id' now' = .ok (σ'', changes')

theorem undoMerge_undone {σ σ' : Store} {h : MergeHistory} {now : Timestamp}
    {changes : List RelationshipChange} (hg : σ.mergeHistory.get? h.id = some h)
    (hu : undoMerge σ h.id now = .ok (σ', changes)) : Undone σ σ' h now := by
  have ⟨h', _, _, hg', _, _, _, _, hu⟩ := undoMerge_eq_ok.mp hu
  obtain rfl : h = h' := Option.some.inj <| hg.symm.trans hg'
  exact undoInTx_undone hu

section

variable {σ₀ σ₁ σ₂ : Store} {s a b : EntityId} {c₁ c₂ : Context} {h₁ h₂ : MergeHistory}
  {ch₁ ch₂ : List RelationshipChange}

theorem Twice.of_executeMerge (he₁ : executeMergeWithAudit σ₀ s a c₁ = .ok (σ₁, h₁, ch₁))
    (he₂ : executeMergeWithAudit σ₁ s b c₂ = .ok (σ₂, h₂, ch₂)) :
    ∃ s' a' b' : Entity, s'.id = s ∧ a'.id = a ∧ b'.id = b ∧ Twice σ₀ σ₁ σ₂ s' a' b' c₁ c₂ h₁ h₂ := by
  have ⟨s', a', hc₁, hx₁⟩ := executeMergeWithAudit_eq_ok.mp he₁
  have ⟨s'', b', hc₂, hx₂⟩ := executeMergeWithAudit_eq_ok.mp he₂
  have hx₁ := executeInTx_executed hc₁.ids_ne hx₁
  have hx₂ := executeInTx_executed hc₂.ids_ne hx₂
  have hs := hc₂.get_survivor
  have hb := hc₂.get_merged
  simp only [hx₁.entities, Table.get?_put, Entity.key_eq] at hs hb
  have hab : a'.id ≠ b := fun hab => by
    rw [if_pos hab] at hb
    have := hc₂.merged_unmerged
    simp [← Option.some.inj hb] at this
  rw [if_neg hab] at hb
  rw [if_neg (hc₁.survivor_id ▸ hc₁.ids_ne), hc₁.get_survivor, Option.some.injEq] at hs
  subst hs
  have hs := hc₁.survivor_id
  have ha := hc₁.merged_id
  have hb' := hc₂.merged_id
  subst hs ha hb'
  exact ⟨s', a', b', rfl, rfl, rfl, hx₁, hx₂, hc₁.get_survivor, hc₁.get_merged, hb,
    hc₁.survivor_unmerged, hc₁.merged_unmerged, hc₂.merged_unmerged, hc₁.ids_ne, hc₂.ids_ne, hab⟩

-- Both orders in which two merges into the same survivor can be undone lead back to the state before
-- the merges exactly if no relationship which absorbs ones of both entities gets anything from the
-- first of them.
theorem undo_order (he₁ : executeMergeWithAudit σ₀ s a c₁ = .ok (σ₁, h₁, ch₁))
    (he₂ : executeMergeWithAudit σ₁ s b c₂ = .ok (σ₂, h₂, ch₂)) (hid : c₂.id ≠ c₁.id) :
    (∀ σ₄, UndoneInOrder σ₂ σ₄ h₂.id h₁.id ∨ UndoneInOrder σ₂ σ₄ h₁.id h₂.id →
      Recovered (Twice.lost σ₀ σ₁ s a b) σ₀ σ₄) ↔ OrderFree σ₀ s a b := by
  obtain ⟨s, a, b, rfl, rfl, rfl, ht⟩ := Twice.of_executeMerge he₁ he₂
  have hid : h₂.id ≠ h₁.id := by rwa [ht.first.id, ht.second.id]
  constructor
  case mp =>
    intro h
    by_cases hn : Adjacent σ₀ a.id b.id
    case pos => exact .inl hn
    refine .inr fun x hx y hy r hfx hfy => addsNothing_iff c₁.now |>.mp ?_
    have ⟨σ₃, σ₄, ch, ch', hm₁, hm₂⟩ := ht.fifo_progress hid hn 0 0
    have hu₁ := undoMerge_undone (ht.get_h₁ hid) hm₁
    have hu₂ := undoMerge_undone (ht.fifo_get_h₂ hid hu₁) hm₂
    have ⟨hr, hrx⟩ := fate_absorbs_of_absorbed σ₀.relationship_natural ht.ne_as hx hfx
    have ⟨_, hry⟩ := fate_absorbs_of_absorbed σ₀.relationship_natural ht.ne_bs hy hfy
    have ⟨row, hg, hs⟩ := ht.fifo_shared hu₁ hu₂ hn hr hrx hry
    have hsame := (h σ₄ <| .inr ⟨0, 0, σ₃, ch, ch', hm₁, hm₂⟩).relationships r.id
    have hgr : σ₀.relationships.get? r.id = some r := Table.mem_iff_get?.mp hr
    rw [hg, hgr] at hsame
    cases hsame
    case some hsame =>
      rw [← hs, ← hsame]
      rfl
  case mpr =>
    rintro h σ₄ (⟨now, now', σ₃, ch, ch', hm₂, hm₁⟩ | ⟨now, now', σ₃, ch, ch', hm₁, hm₂⟩)
    case inl =>
      have hu₂ := undoMerge_undone ht.get_h₂ hm₂
      exact ht.lifo hu₂ <| undoMerge_undone (ht.lifo_get_h₁ hid hu₂) hm₁
    case inr =>
      have hu₁ := undoMerge_undone (ht.get_h₁ hid) hm₁
      have hu₂ := undoMerge_undone (ht.fifo_get_h₂ hid hu₁) hm₂
      have hn := ht.not_adjacent hu₁
      exact {
        entities        := ht.fifo_entities hu₁ hu₂
        aliases         := ht.fifo_aliases hu₁ hu₂
        identifiers     := ht.fifo_identifiers hu₁ hu₂
        extractions     := ht.fifo_extractions hu₁ hu₂
        evidence        := ht.fifo_evidence hu₁ hu₂ hn
        relationships i := ht.fifo_same hu₁ hu₂ hn i fun x y r hg hx hy => by
          have hr := Table.get?_mem hg
          have ⟨hx, hfx⟩ := fate_absorbed_of_absorbs σ₀.relationship_natural ht.ne_as hr hx
          have ⟨hy, hfy⟩ := fate_absorbed_of_absorbs σ₀.relationship_natural ht.ne_bs hr hy
          exact addsNothing_iff c₁.now |>.mpr <| h.resolve_left hn x hx y hy r hfx hfy }

end

-- Three entities which have the same relationship with a fourth one.
def sharedSample : Store := .mk
  { entities      := danglingSample.entities
    relationships := ⟨[Sample.owns 11 1 4 1, Sample.owns 12 2 4 1, Sample.owns 13 3 4 1],
      by decide⟩ }

def sharedContext (id : MergeHistoryId) : Context :=
  { reason := "", operator := "", audit := none, id, now := 7 }

theorem undo_order_sharedSample : ∃ x y,
    executeMergeWithAudit sharedSample 1 2 (sharedContext 31) = .ok x ∧
    executeMergeWithAudit x.fst 1 3 (sharedContext 32) = .ok y ∧
    ((∀ σ₄, UndoneInOrder y.fst σ₄ y.snd.fst.id x.snd.fst.id ∨
      UndoneInOrder y.fst σ₄ x.snd.fst.id y.snd.fst.id →
        Recovered (Twice.lost sharedSample x.fst 1 2 3) sharedSample σ₄) ↔
      OrderFree sharedSample 1 2 3) := by
  have ⟨_, h⟩ := Except.exists_of_isOk <| show (executeMergeWithAudit sharedSample 1 2
    (sharedContext 31) >>= (executeMergeWithAudit ·.fst 1 3 (sharedContext 32))).isOk by decide
  have ⟨x, hx, hy⟩ := Except.bind_eq_ok.mp h
  exact ⟨x, _, hx, hy, undo_order hx hy (by decide)⟩

theorem not_undo_order : ¬∀ (σ₀ σ₁ σ₂ σ₄ : Store) (s a b : EntityId) (c₁ c₂ : Context)
    (h₁ h₂ : MergeHistory) (ch₁ ch₂ : List RelationshipChange),
    executeMergeWithAudit σ₀ s a c₁ = .ok (σ₁, h₁, ch₁) →
    executeMergeWithAudit σ₁ s b c₂ = .ok (σ₂, h₂, ch₂) → c₂.id ≠ c₁.id →
    UndoneInOrder σ₂ σ₄ h₁.id h₂.id → Recovered (Twice.lost σ₀ σ₁ s a b) σ₀ σ₄ := by
  intro h
  have hrun : (do
      let x ← executeMergeWithAudit sharedSample 1 2 (sharedContext 31)
      let y ← executeMergeWithAudit x.fst 1 3 (sharedContext 32)
      let u ← undoMerge y.fst x.snd.fst.id 8
      let v ← undoMerge u.fst y.snd.fst.id 9
      return (v.fst.relationships.get? 11).map Relationship.evidenceCount) = .ok (some (2 : Int32)) := by
    decide
  simp only [Except.bind_eq_ok, Except.pure_eq_ok] at hrun
  obtain ⟨x, hx, y, hy, u, hu, v, hv, hc⟩ := hrun
  have hr := h _ _ _ v.fst 1 2 3 _ _ _ _ _ _ hx hy (by decide) ⟨8, 9, u.fst, _, _, hu, hv⟩
  have hs := hr.relationships 11
  have hg : sharedSample.relationships.get? 11 = some (Sample.owns 11 1 4 1) := rfl
  rw [hg] at hs
  cases hv : v.fst.relationships.get? 11
  case none => simp [hv] at hc
  case some row =>
    rw [hv] at hs hc
    cases hs
    case some hs =>
      rw [← hs] at hc
      simp [Sample.owns] at hc

end Merge
