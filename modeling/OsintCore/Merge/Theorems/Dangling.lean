import OsintCore.Merge.Theorems.Revert
import OsintCore.Merge.Undo

open Relation (TransGen)

namespace Merge

-- The entity has been merged away.
def Gone (σ : Store) (a : EntityId) : Prop :=
  ∃ b, MergedInto σ a b

instance {σ : Store} {a : EntityId} : Decidable (Gone σ a) :=
  decidable_of_iff ((σ.entities.get? a).bind Entity.mergedInto).isSome <| by
    simp [Gone, mergedInto_iff, Option.isSome_iff_exists]

structure NoDangling (σ : Store) : Prop where
  relationships : ∀ r ∈ σ.relationships, ∀ x, r.Touches x → ¬Gone σ x
  aliases       : ∀ a ∈ σ.entityAliases, ¬Gone σ a.entityId
  identifiers   : ∀ i ∈ σ.entityIdentifiers, ¬Gone σ i.entityId
  extractions   : ∀ x ∈ σ.entityExtractions, ¬Gone σ x.entityId

-- No merge is in force.
structure Pristine (σ : Store) : Prop where
  entities : ∀ e ∈ σ.entities, e.mergedInto = none
  history  : ∀ h ∈ σ.mergeHistory, h.undoneAt ≠ none

-- The histories in force, each with the merge which wrote it.
def Recorded (σ : Store) : Prop :=
  ∀ h ∈ σ.mergeHistory, h.undoneAt = none → ∃ σ₀ σ₁ survivor merged ctx,
    merged.id ≠ survivor.id ∧ Executed σ₀ σ₁ survivor merged ctx h

-- The ends of the deleted relationships which an undo brings back are not merged away, apart from the
-- merged entity itself.
def EndsPresent (σ : Store) (h : MergeHistory) : Prop :=
  ∀ mr ∈ h.mergedRelationships, ∀ x, mr.absorbedSnapshot.Touches x → x ≠ h.mergedId → ¬Gone σ x

section Steps

variable {σ σ' : Store} {survivor merged : Entity} {ctx : Context} {h : MergeHistory}
  {now : Timestamp}

theorem Executed.gone (he : Executed σ σ' survivor merged ctx h) {a : EntityId} :
    Gone σ' a ↔ a = merged.id ∨ Gone σ a := by
  simp only [Gone, he.mergedInto]
  by_cases ha : a = merged.id <;> simp [ha]

theorem Undone.gone (hu : Undone σ σ' h now) {a : EntityId} :
    Gone σ' a ↔ a ≠ h.mergedId ∧ Gone σ a := by
  have ⟨e, hg, hp⟩ := hu.entities
  have hk : e.id = h.mergedId := Table.get?_key hg
  simp only [Gone, mergedInto_iff, hp, Table.get?_put, Entity.key_eq, hk, eq_comm (a := h.mergedId)]
  by_cases ha : a = h.mergedId <;> simp [ha]

theorem Pristine.noDangling (hp : Pristine σ) : NoDangling σ := by
  have hn : ∀ a, ¬Gone σ a := fun a ⟨b, e, hg, hm⟩ => by
    simp [hp.entities e (Table.get?_mem hg)] at hm
  exact ⟨fun _ _ x _ => hn x, fun _ _ => hn _, fun _ _ => hn _, fun _ _ => hn _⟩

theorem repointedRow_touches {m s x : EntityId} {r : Relationship}
    (h : (repointedRow m s now r).Touches x) : x = s ∨ r.Touches x ∧ x ≠ m := by
  simp only [repointedRow, repointedEnds, Relationship.Touches] at *
  grind

theorem restoreEnd_touches {m x : EntityId} {r row : Relationship}
    (h : (restoreEnd m r now row).Touches x) : x = m ∨ row.Touches x := by
  simp only [restoreEnd, Relationship.Touches] at *
  grind

-- A merge repoints all references to the merged entity to the survivor, which is not merged.
theorem Executed.noDangling (he : Executed σ σ' survivor merged ctx h)
    (hne : merged.id ≠ survivor.id) (hs : ¬Gone σ survivor.id) (hd : NoDangling σ) :
    NoDangling σ' := by
  have owner {a : EntityId} (ha : ¬Gone σ a) :
      ¬Gone σ' (if a = merged.id then survivor.id else a) := by
    rw [he.gone]
    split_ifs with hi
    · simp [hne.symm, hs]
    · simp [hi, ha]
  constructor
  case relationships =>
    intro r hr x hx
    have hg := Table.mem_iff_get?.mp hr
    rw [he.relationships] at hg
    have ⟨r₀, hr₀, hg⟩ := Option.bind_eq_some_iff.mp hg
    have hd₀ := hd.relationships r₀ (Table.get?_mem hr₀)
    rw [he.gone, not_or]
    unfold mergedRelationship at hg
    split at hg
    case h_1 hf =>
      obtain rfl := Option.some.inj hg
      exact ⟨fun hm => (fate_eq_kept.mp hf).left (hm ▸ hx), hd₀ x hx⟩
    case h_4 hf =>
      obtain rfl := Option.some.inj hg
      obtain rfl | ⟨hx, hm⟩ := repointedRow_touches hx
      · exact ⟨hne.symm, hs⟩
      · exact ⟨hm, hd₀ x hx⟩
    case h_5 a hf =>
      obtain rfl := Option.some.inj hg
      exact ⟨fun hm => (fate_eq_absorbs σ.relationship_natural |>.mp hf).left (hm ▸ hx), hd₀ x hx⟩
    all_goals simp at hg
  case aliases =>
    intro a ha
    have hg := Table.mem_iff_get?.mp ha
    rw [he.aliases] at hg
    have ⟨a₀, hg₀, hg⟩ := Option.map_eq_some_iff.mp hg
    have := owner <| hd.aliases a₀ (Table.get?_mem hg₀)
    rw [← hg]
    split_ifs at this ⊢ <;> exact this
  case identifiers =>
    intro a ha
    have hg := Table.mem_iff_get?.mp ha
    rw [he.identifiers] at hg
    have ⟨a₀, hg₀, hg⟩ := Option.map_eq_some_iff.mp hg
    have := owner <| hd.identifiers a₀ (Table.get?_mem hg₀)
    rw [← hg]
    split_ifs at this ⊢ <;> exact this
  case extractions =>
    intro a ha
    have hg := Table.mem_iff_get?.mp ha
    rw [he.extractions] at hg
    have ⟨a₀, hg₀, hg⟩ := Option.map_eq_some_iff.mp hg
    have := owner <| hd.extractions a₀ (Table.get?_mem hg₀)
    rw [← hg]
    split_ifs at this ⊢ <;> exact this

-- The undo brings back what it has deleted, with the ends which it had.
theorem Undone.mem_of_entry {σ₀ σ₁ : Store} (he : Executed σ₀ σ₁ survivor merged ctx h)
    (hne : merged.id ≠ survivor.id) (hu : Undone σ σ' h now) {mr : MergedRelationship}
    (hm : mr ∈ h.mergedRelationships) : mr.absorbedSnapshot ∈ σ'.relationships := by
  rw [Table.mem_iff_get?, hu.relationships, he.reverted_relationships hne]
  obtain ⟨r, hr, hf, rfl⟩ | ⟨a, ha, b, hf, rfl⟩ := he.entries mr |>.mp hm
  case inl =>
    have hg : σ₀.relationships.get? r.id = some r := Table.mem_iff_get?.mp hr
    simp [revertedRelationship, selfLoopEntry, hg, hf]
  case inr =>
    have hg : σ₀.relationships.get? a.id = some a := Table.mem_iff_get?.mp ha
    simp [revertedRelationship, collisionEntry, hg, hf]

theorem Undone.noDangling {σ₀ σ₁ : Store} (he : Executed σ₀ σ₁ survivor merged ctx h)
    (hne : merged.id ≠ survivor.id) (hu : Undone σ σ' h now) (hd : NoDangling σ) :
    NoDangling σ' ↔ EndsPresent σ h := by
  constructor
  case mp =>
    intro hd' mr hm x hx hxm hg
    exact hd'.relationships _ (hu.mem_of_entry he hne hm) x hx <| hu.gone.mpr ⟨hxm, hg⟩
  case mpr =>
    intro hp
    have keep {x : EntityId} (hx : ¬Gone σ x) : ¬Gone σ' x := fun hg => hx (hu.gone.mp hg).right
    have back : ¬Gone σ' merged.id := fun hg => (hu.gone.mp hg).left he.mergedId.symm
    constructor
    case relationships =>
      intro r hr x hx
      have hg : σ'.relationships.get? r.id = some r := Table.mem_iff_get?.mp hr
      rw [hu.relationships, he.reverted_relationships hne] at hg
      have now {v : Relationship} (hv : σ.relationships.get? r.id = some v) (hx : v.Touches x) :
          ¬Gone σ' x := keep <| hd.relationships v (Table.get?_mem hv) x hx
      have entry {mr : MergedRelationship} (hm : mr ∈ h.mergedRelationships)
          (hx : mr.absorbedSnapshot.Touches x) : ¬Gone σ' x := by
        by_cases hi : x = merged.id
        · exact hi ▸ back
        · exact keep <| hp mr hm x hx <| he.mergedId ▸ hi
      unfold revertedRelationship at hg
      cases hr₀ : σ₀.relationships.get? r.id
      case none =>
        simp only [hr₀] at hg
        exact now hg hx
      case some r₀ =>
        have hm₀ := Table.get?_mem hr₀
        cases hf : fate σ₀.relationships merged.id survivor.id r₀
        all_goals simp only [hr₀, hf] at hg
        case kept => exact now hg hx
        case selfLoop =>
          obtain rfl := Option.some.inj hg
          exact entry (he.entries _ |>.mpr <| .inl ⟨r₀, hm₀, hf, rfl⟩) hx
        case absorbed b =>
          obtain rfl := Option.some.inj hg
          exact entry (he.entries _ |>.mpr <| .inr ⟨r₀, hm₀, b, hf, rfl⟩) hx
        case repointed =>
          have ⟨v, hv, hr⟩ := Option.map_eq_some_iff.mp hg
          obtain rfl | hx := restoreEnd_touches (hr ▸ hx)
          · exact back
          · exact now hv hx
        case absorbs =>
          have ⟨v, hv, hr⟩ := Option.map_eq_some_iff.mp hg
          exact now hv (by subst hr; exact hx)
    case aliases =>
      intro a ha
      have hg := Table.mem_iff_get?.mp ha
      rw [hu.aliases, he.reverted_aliases] at hg
      split_ifs at hg
      · have ⟨_, _, hg⟩ := Option.map_eq_some_iff.mp hg
        exact hg ▸ back
      · exact keep <| hd.aliases a (Table.get?_mem hg)
    case identifiers =>
      intro a ha
      have hg := Table.mem_iff_get?.mp ha
      rw [hu.identifiers, he.reverted_identifiers] at hg
      split_ifs at hg
      · have ⟨_, _, hg⟩ := Option.map_eq_some_iff.mp hg
        exact hg ▸ back
      · exact keep <| hd.identifiers a (Table.get?_mem hg)
    case extractions =>
      intro a ha
      have hg := Table.mem_iff_get?.mp ha
      rw [hu.extractions, he.reverted_extractions] at hg
      split_ifs at hg
      · have ⟨_, _, hg⟩ := Option.map_eq_some_iff.mp hg
        exact hg ▸ back
      · exact keep <| hd.extractions a (Table.get?_mem hg)

end Steps

-- What a step of a run does.
inductive Op.Steps (σ : Store) : Op → Store → Prop
  | executeMerge {survivorId mergedId : EntityId} {ctx : Context} {σ' : Store}
    {survivor merged : Entity} {h : MergeHistory}
    (checked : Checked σ survivorId mergedId survivor merged)
    (executed : Executed σ σ' survivor merged ctx h) :
    Steps σ (.executeMerge survivorId mergedId ctx) σ'
  | undoMerge {id : MergeHistoryId} {now : Timestamp} {σ' : Store} {h : MergeHistory}
    (get : σ.mergeHistory.get? id = some h) (inForce : h.undoneAt = none)
    (accepted : (Merge.undoMerge σ id now).isOk) (undone : Undone σ σ' h now) :
    Steps σ (.undoMerge id now) σ'
  | fail {op : Op}
    (rejected : ∀ id now, op = .undoMerge id now → ¬(Merge.undoMerge σ id now).isOk) : Steps σ op σ

theorem Op.step_steps {σ : Store} {op : Op} : op.Steps σ (op.step σ) := by
  cases op
  case executeMerge survivorId mergedId ctx =>
    simp only [step]
    split
    case h_1 h =>
      have ⟨survivor, merged, hc, hx⟩ := executeMergeWithAudit_eq_ok.mp h
      exact .executeMerge hc <| executeInTx_executed hc.ids_ne hx
    case h_2 => exact .fail nofun
  case undoMerge id now =>
    simp only [step]
    split
    case h_1 h =>
      have ⟨hist, _, _, hg, hi, _, _, _, hu⟩ := undoMerge_eq_ok.mp h
      exact .undoMerge hg hi (by simp [h, Except.isOk, Except.toBool]) (undoInTx_undone hu)
    case h_2 h => exact .fail fun _ _ he => by cases he; simp [h, Except.isOk, Except.toBool]

section Runs

variable {σ : Store}

theorem Recorded.step (hr : Recorded σ) (op : Op) : Recorded (op.step σ) := by
  have hs := op.step_steps (σ := σ)
  generalize op.step σ = σ' at hs
  cases hs
  case executeMerge checked executed =>
    intro h hm hi
    rw [executed.mergeHistory] at hm
    obtain rfl | ⟨hm, _⟩ := Table.mem_put.mp hm
    · exact ⟨_, _, _, _, _, checked.ids_ne, executed⟩
    · exact hr h hm hi
  case undoMerge undone =>
    intro h hm hi
    rw [undone.mergeHistory] at hm
    obtain rfl | ⟨hm, _⟩ := Table.mem_put.mp hm
    · simp at hi
    · exact hr h hm hi
  case fail => exact hr

theorem Pristine.recorded (hσ : Pristine σ) (l : List Op) : Recorded (run σ l) :=
  List.foldl_invariant (fun h hm hi => absurd hi (hσ.history h hm)) fun _ op _ hr => hr.step op

-- An undo which is accepted finds the ends of the relationships which it brings back.
def Op.EndsPresent (σ : Store) (op : Op) : Prop :=
  ∀ id now h, op = .undoMerge id now → σ.mergeHistory.get? id = some h →
    (Merge.undoMerge σ id now).isOk → Merge.EndsPresent σ h

theorem NoDangling.step (hd : NoDangling σ) (hr : Recorded σ) (op : Op) :
    NoDangling (op.step σ) ↔ op.EndsPresent σ := by
  have hs := op.step_steps (σ := σ)
  generalize op.step σ = σ' at hs
  cases hs
  case executeMerge checked executed =>
    refine iff_of_true (executed.noDangling checked.ids_ne ?_ hd) nofun
    simp [Gone, mergedInto_iff, checked.survivor_id, checked.get_survivor, checked.survivor_unmerged]
  case undoMerge h get inForce accepted undone =>
    have ⟨_, _, _, _, _, hne, he⟩ := hr h (Table.get?_mem get) inForce
    rw [undone.noDangling he hne hd]
    constructor
    · intro hp id now h' ho hg _
      cases ho
      exact Option.some.inj (get.symm.trans hg) ▸ hp
    · exact fun hp => hp _ _ h rfl get accepted
  case fail rejected =>
    exact iff_of_true hd fun id now h ho _ hok => absurd hok (rejected id now ho)

theorem run_append_singleton {l : List Op} {op : Op} : run σ (l ++ [op]) = op.step (run σ l) := by
  simp [run]

-- Starting without any merge in force, no reference to an entity which has been merged away comes up
-- for as long as each undo finds the ends of the relationships which it brings back.
theorem run_noDangling (hσ : Pristine σ) (ops : List Op) :
    (∀ l, l <+: ops → NoDangling (run σ l)) ↔
      ∀ l op, l ++ [op] <+: ops → op.EndsPresent (run σ l) := by
  constructor
  case mp =>
    intro h l op hl
    have h₁ := h l <| (List.prefix_append l [op]).trans hl
    have h₂ := h (l ++ [op]) hl
    rw [run_append_singleton] at h₂
    exact h₁.step (hσ.recorded l) op |>.mp h₂
  case mpr =>
    intro h l hl
    induction l using List.reverseRecOn
    case nil => exact hσ.noDangling
    case append_singleton l op hi =>
      have h₁ := hi <| (List.prefix_append l [op]).trans hl
      rw [run_append_singleton]
      exact h₁.step (hσ.recorded l) op |>.mpr <| h l op hl

end Runs

-- An entity `3` with a relationship to each of two entities which are merged; later, `3` is merged.
def danglingSample : Store := .mk
  { entities := ⟨[Sample.person 1 "a", Sample.person 2 "b", Sample.person 3 "c",
      Sample.person 4 "d"], by decide⟩
    relationships := ⟨[Sample.owns 11 1 3 1, Sample.owns 12 2 3 1], by decide⟩ }

def danglingOps : List Op :=
  [.executeMerge 1 2 { reason := "", operator := "", audit := none, id := 31, now := 7 },
   .executeMerge 4 3 { reason := "", operator := "", audit := none, id := 32, now := 8 },
   .undoMerge 31 9]

theorem danglingSample_pristine : Pristine danglingSample :=
  ⟨by decide, by decide⟩

theorem run_noDangling_danglingOps :
    (∀ l, l <+: danglingOps → NoDangling (run danglingSample l)) ↔
      ∀ l op, l ++ [op] <+: danglingOps → op.EndsPresent (run danglingSample l) :=
  run_noDangling danglingSample_pristine danglingOps

theorem not_run_noDangling : ¬∀ (σ : Store) (ops : List Op), Pristine σ → NoDangling (run σ ops) := by
  intro h
  have hd := h danglingSample danglingOps danglingSample_pristine
  have hg : ∃ r ∈ (run danglingSample danglingOps).relationships.rows, r.targetObjectId = 3 := by
    decide
  have ⟨r, hm, ht⟩ := hg
  exact hd.relationships r hm 3 (.inr ht) (by decide)

end Merge
