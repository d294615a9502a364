import OsintCore.Api.Theorems.Pagination
import OsintCore.Projection.Worker
import OsintCore.Table.Fold

open Resumption

-- An event is read as what it announces.
theorem parseChange_relationshipChanged {rel : Relationship} {kind : ChangeKind}
    (hi : rel.id < 2 ^ 128) (hs : rel.sourceObjectId < 2 ^ 128)
    (ht : rel.targetObjectId < 2 ^ 128) : parseChange (relationshipChanged rel kind) =
      .ok ⟨rel.id, rel.sourceObjectId, rel.targetObjectId, kind⟩ := by
  cases kind <;>
    simp [parseChange, requiredUuid, relationshipChanged, Json.get, Json.asObject, List.lookup,
      Json.asStr, Uuid.parseStr_toText hi, Uuid.parseStr_toText hs, Uuid.parseStr_toText ht,
      ChangeKind.asStr]

theorem run_writeGraph_bind {α : Type} {faulty : Bool} {g : GraphStore}
    {write : GraphStore → Except GraphStoreError GraphStore} {next : Unit → GraphWriting α} :
    (writeGraph faulty write >>= next).run g =
      if faulty then (.error (.storage .unavailable), g)
      else match write g with
        | .ok g'   => (next ()).run g'
        | .error e => (.error (.storage e), g) := by
  rw [run_bind, writeGraph, run_write]
  cases faulty
  case true  => rfl
  case false => cases write g <;> simp [Except.mapError]

namespace Store

variable {σ : Store} {faults : Faults} {rel : Relationship}

-- Both ends of the relationship are entities.
def BetweenEntities (σ : Store) (rel : Relationship) : Prop :=
  (σ.getEntity rel.sourceObjectId).isSome ∧ (σ.getEntity rel.targetObjectId).isSome

instance : Decidable (σ.BetweenEntities rel) :=
  inferInstanceAs (Decidable (_ ∧ _))

-- The writes of a relationship reach the graph.
def Projects (σ : Store) (faults : Faults) (rel : Relationship) : Prop :=
  σ.BetweenEntities rel ∧ rel.sourceObjectId ≠ rel.targetObjectId ∧ ∀ k < 3, ¬faults k

instance : Decidable (σ.Projects faults rel) :=
  inferInstanceAs (Decidable (_ ∧ _))

-- The nodes which are written for a relationship: all of them, or those before the first failure.
def writtenNodes (σ : Store) (faults : Faults) (rel : Relationship) : List GraphNode :=
  match σ.getEntity rel.sourceObjectId, σ.getEntity rel.targetObjectId with
  | some source, some target =>
    if faults 0 then [] else if faults 1 then [graphNode source]
    else [graphNode source, graphNode target]
  | _, _ => []

def writtenEdge (σ : Store) (faults : Faults) (rel : Relationship) : Option GraphEdge :=
  if σ.Projects faults rel then some (graphEdge rel) else none

theorem applyRelationship_skips (h : ¬σ.BetweenEntities rel) (g : GraphStore) :
    (applyRelationship σ faults rel).run g = (.ok (.skippedNonEntity rel.id), g) := by
  unfold applyRelationship
  split
  case h_1 hs ht => simp [BetweenEntities, hs, ht] at h
  case h_2       => rfl

theorem applyRelationship_applies (h : σ.Projects faults rel) (g : GraphStore) :
    (applyRelationship σ faults rel).run g = (.ok (.applied rel.id rel.lastSeen),
      { nodes := (σ.writtenNodes faults rel).foldl .put g.nodes
        edges := g.edges.put (graphEdge rel) }) := by
  have ⟨⟨hs, ht⟩, hn, hf⟩ := h
  have ⟨source, hs⟩ := Option.isSome_iff_exists.mp hs
  have ⟨target, ht⟩ := Option.isSome_iff_exists.mp ht
  have hf₀ := hf 0 (by decide)
  have hf₁ := hf 1 (by decide)
  have hf₂ := hf 2 (by decide)
  have hn : (graphEdge rel).source ≠ (graphEdge rel).target := hn
  simp [applyRelationship, writtenNodes, hs, ht, hf₀, hf₁, hf₂, hn, run_writeGraph_bind,
    GraphStore.upsertNode, GraphStore.upsertEdge, Resumption.run, Pure.pure]

theorem applyRelationship_fails (h : ¬σ.Projects faults rel) (hb : σ.BetweenEntities rel)
    (g : GraphStore) : ∃ e, (applyRelationship σ faults rel).run g = (.error e,
      { g with nodes := (σ.writtenNodes faults rel).foldl .put g.nodes }) := by
  have ⟨source, hs⟩ := Option.isSome_iff_exists.mp hb.left
  have ⟨target, ht⟩ := Option.isSome_iff_exists.mp hb.right
  simp only [applyRelationship, writtenNodes, hs, ht, run_writeGraph_bind, GraphStore.upsertNode,
    GraphStore.upsertEdge]
  split_ifs with hf₀ hf₁ hf₂ hn
  case pos => exact ⟨_, rfl⟩
  case pos => exact ⟨_, rfl⟩
  case pos => exact ⟨_, rfl⟩
  case pos => exact ⟨_, rfl⟩
  case neg =>
    refine absurd ⟨hb, hn, fun k hk => ?_⟩ h
    match k, hk with
    | 0, _ => exact hf₀
    | 1, _ => exact hf₁
    | 2, _ => exact hf₂

end Store
