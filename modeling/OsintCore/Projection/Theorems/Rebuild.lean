import OsintCore.Projection.Theorems.Worker
import OsintCore.Storage.Theorems.Listing

open Resumption

section

variable {σ : Store} {faults : RelationshipId → Faults} {rel : Relationship}
  {rows : List Relationship} {report : RebuildReport} {g : GraphStore}

-- What a row adds to the graph.
theorem applyRelationship_exec {faults : Faults} : (applyRelationship σ faults rel).exec g =
    { nodes := (σ.writtenNodes faults rel).foldl .put g.nodes
      edges := (σ.writtenEdge faults rel).toList.foldl .put g.edges } := by
  by_cases h : σ.Projects faults rel
  case pos => simp [exec, Store.applyRelationship_applies h, Store.writtenEdge, h]
  case neg =>
    by_cases hb : σ.BetweenEntities rel
    case pos =>
      have ⟨_, hr⟩ := Store.applyRelationship_fails h hb g
      simp [exec, hr, Store.writtenEdge, h]
    case neg =>
      have hn : σ.writtenNodes faults rel = [] := by
        unfold Store.writtenNodes
        split
        case h_1 hs ht => simp [Store.BetweenEntities, hs, ht] at hb
        case h_2       => rfl
      simp [exec, Store.applyRelationship_skips hb, Store.writtenEdge, h, hn]

theorem rebuildRow_snd : (rebuildRow σ faults (report, g) rel).snd =
    (applyRelationship σ (faults rel.id) rel).exec g := by
  simp only [rebuildRow, exec]
  split <;> simp_all

theorem foldl_rebuildRow_snd : (rows.foldl (rebuildRow σ faults) (report, g)).snd =
    rows.foldl (fun g rel => (applyRelationship σ (faults rel.id) rel).exec g) g :=
  List.foldl_view (v := Prod.snd) fun _ _ _ => rebuildRow_snd

-- Each row is counted once, by what becomes of it.
theorem rebuildRow_fst : (rebuildRow σ faults (report, g) rel).fst =
    { scanned          := report.scanned + 1
      applied          := report.applied + if σ.Projects (faults rel.id) rel then 1 else 0
      skippedNonEntity := report.skippedNonEntity + if σ.BetweenEntities rel then 0 else 1
      failed           := report.failed +
        if σ.BetweenEntities rel ∧ ¬σ.Projects (faults rel.id) rel then 1 else 0 } := by
  by_cases h : σ.Projects (faults rel.id) rel
  case pos => simp [rebuildRow, Store.applyRelationship_applies h, h, h.left]
  case neg =>
    by_cases hb : σ.BetweenEntities rel
    case pos =>
      have ⟨_, hr⟩ := Store.applyRelationship_fails h hb g
      simp [rebuildRow, hr, h, hb]
    case neg => simp [rebuildRow, Store.applyRelationship_skips hb, h, hb]

theorem foldl_rebuildRow_fst : (rows.foldl (rebuildRow σ faults) (report, g)).fst =
    { scanned          := report.scanned + rows.length
      applied          := report.applied + rows.countP fun rel => σ.Projects (faults rel.id) rel
      skippedNonEntity := report.skippedNonEntity + rows.countP fun rel => ¬σ.BetweenEntities rel
      failed           := report.failed +
        rows.countP fun rel => σ.BetweenEntities rel ∧ ¬σ.Projects (faults rel.id) rel } := by
  induction rows generalizing report g
  case nil => rfl
  case cons rel rows hi =>
    rw [List.foldl_cons, ← Prod.mk.eta (p := rebuildRow σ faults (report, g) rel), hi,
      rebuildRow_fst]
    simp only [List.length_cons, List.countP_cons, RebuildReport.mk.injEq]
    refine ⟨by omega, ?_, ?_, ?_⟩ <;> split_ifs <;> simp_all <;> omega

-- The rows of the table are either projected, or skipped, or they fail.
theorem countP_outcomes (σ : Store) (faults : RelationshipId → Faults) (rows : List Relationship) :
    rows.length = (rows.countP fun rel => σ.Projects (faults rel.id) rel) +
    (rows.countP fun rel => ¬σ.BetweenEntities rel) +
    rows.countP fun rel => σ.BetweenEntities rel ∧ ¬σ.Projects (faults rel.id) rel := by
  induction rows
  case nil => rfl
  case cons rel rows hi =>
    have hp : σ.Projects (faults rel.id) rel → σ.BetweenEntities rel := And.left
    simp only [List.length_cons, List.countP_cons]
    split_ifs <;> simp_all <;> omega

variable {pageSize fuel : Nat} {cursor : Option RelationshipId} {acc r : RebuildReport × GraphStore}

-- A page is worked off, and then the rest of the table or nothing.
theorem rebuildLoop_succ (hp : 0 < pageSize) (hm : pageSize ≤ 100) :
    let rest := σ.relationships.remaining (fun _ => true) cursor
    rebuildLoop σ faults pageSize (fuel + 1) cursor acc =
        some (rest.foldl (rebuildRow σ faults) acc) ∨
      ∃ page last, page ≠ [] ∧
        rest = page ++ σ.relationships.remaining (fun _ => true) (some last) ∧
        rebuildLoop σ faults pageSize (fuel + 1) cursor acc =
          rebuildLoop σ faults pageSize fuel (some last) (page.foldl (rebuildRow σ faults) acc) := by
  intro rest
  have hl : σ.listRelationships cursor pageSize = rest.take pageSize := by
    have hc : Store.clampLimit pageSize = pageSize := by
      simp only [Store.clampLimit]
      omega
    rw [Store.listRelationships, hc, Table.page_eq_take]
  simp only [rebuildLoop, hl]
  split
  case h_1 hl =>
    have hr : rest = [] := by
      rw [List.getLast?_eq_none_iff, List.take_eq_nil_iff] at hl
      exact hl.resolve_left (by omega)
    rw [hr]
    exact .inl rfl
  case h_2 last hl =>
    split_ifs with hn
    case pos => rw [List.take_of_length_take_lt hn]; exact .inl rfl
    case neg =>
      exact .inr ⟨_, last.id, List.ne_nil_of_mem (List.mem_of_getLast? hl),
        Table.remaining_eq_append hl, rfl⟩

theorem rebuildLoop_eq (hp : 0 < pageSize) (hm : pageSize ≤ 100)
    (h : rebuildLoop σ faults pageSize fuel cursor acc = some r) :
    r = (σ.relationships.remaining (fun _ => true) cursor).foldl (rebuildRow σ faults) acc := by
  induction fuel generalizing cursor acc
  case zero => cases h
  case succ fuel hi =>
    obtain hs | ⟨page, last, _, hr, hs⟩ := rebuildLoop_succ hp hm
    case inl => exact Option.some.inj <| h.symm.trans hs
    case inr => rw [hr, List.foldl_append, hi (hs.symm.trans h)]

-- Each page takes away from what is left.
theorem rebuildLoop_terminates (hp : 0 < pageSize) (hm : pageSize ≤ 100) {n : Nat}
    (hn : (σ.relationships.remaining (fun _ => true) cursor).length ≤ n) :
    (rebuildLoop σ faults pageSize (n + 1) cursor acc).isSome := by
  induction n generalizing cursor acc
  case zero =>
    obtain hs | ⟨page, last, hl, hr, hs⟩ := rebuildLoop_succ hp hm
    case inl => rw [hs]; rfl
    case inr => simp_all
  case succ n hi =>
    obtain hs | ⟨page, last, hl, hr, hs⟩ := rebuildLoop_succ hp hm
    case inl => rw [hs]; rfl
    case inr =>
      have := List.length_pos_iff.mpr hl
      rw [hr, List.length_append] at hn
      rw [hs]
      exact hi (by omega)

theorem processChange_upserted {faults : Faults} (hr : rel ∈ σ.relationships)
    (hu : rel.id < 2 ^ 128 ∧ rel.sourceObjectId < 2 ^ 128 ∧ rel.targetObjectId < 2 ^ 128) :
    processChange σ faults (relationshipChanged rel .upserted) = applyRelationship σ faults rel := by
  have hg : σ.getRelationship rel.id = some rel := Table.mem_iff_get?.mp hr
  rw [processChange, parseChange_relationshipChanged hu.left hu.right.left hu.right.right]
  simp only [applyChange, hg]

theorem foldl_applyRelationship {faults : RelationshipId → Faults} :
    rows.foldl (fun g rel => (applyRelationship σ (faults rel.id) rel).exec g) g =
      { nodes := (rows.flatMap fun rel => σ.writtenNodes (faults rel.id) rel).foldl .put g.nodes
        edges :=
          (rows.filterMap fun rel => σ.writtenEdge (faults rel.id) rel).foldl .put g.edges } := by
  induction rows generalizing g
  case nil => rfl
  case cons rel rows hi =>
    rw [List.foldl_cons, hi, applyRelationship_exec]
    cases h : σ.writtenEdge (faults rel.id) rel <;> simp [h]

theorem mem_writtenNodes {faults : Faults} {n : GraphNode} (h : n ∈ σ.writtenNodes faults rel) :
    ∃ e, σ.getEntity n.entityId = some e ∧ n = graphNode e := by
  unfold Store.writtenNodes at h
  split at h
  case h_2 => cases h
  case h_1 source target hs ht =>
    have hs' : source.id = rel.sourceObjectId := Table.get?_key hs
    have ht' : target.id = rel.targetObjectId := Table.get?_key ht
    have hm : n = graphNode source ∨ n = graphNode target := by
      split_ifs at h <;> simp_all
    obtain rfl | rfl := hm
    · exact ⟨source, by simpa [graphNode, hs'] using hs, rfl⟩
    · exact ⟨target, by simpa [graphNode, ht'] using ht, rfl⟩

-- Two writes of one node or one edge are the same write.
theorem writtenNodes_unique {faults : RelationshipId → Faults} {m n : GraphNode}
    (hm : m ∈ rows.flatMap fun rel => σ.writtenNodes (faults rel.id) rel)
    (hn : n ∈ rows.flatMap fun rel => σ.writtenNodes (faults rel.id) rel)
    (h : Keyed.key m = Keyed.key n) : m = n := by
  have ⟨_, _, hm⟩ := List.mem_flatMap.mp hm
  have ⟨_, _, hn⟩ := List.mem_flatMap.mp hn
  have ⟨e, hm, he⟩ := mem_writtenNodes hm
  have ⟨f, hn, hf⟩ := mem_writtenNodes hn
  rw [GraphNode.key_eq, GraphNode.key_eq] at h
  rw [h, hn] at hm
  rw [he, hf, Option.some.inj hm]

theorem mem_writtenEdges {faults : RelationshipId → Faults} {e : GraphEdge} :
    e ∈ rows.filterMap (fun rel => σ.writtenEdge (faults rel.id) rel) ↔
      ∃ rel ∈ rows, σ.Projects (faults rel.id) rel ∧ e = graphEdge rel := by
  simp only [List.mem_filterMap, Store.writtenEdge, Option.ite_none_right_eq_some,
    Option.some.injEq, @eq_comm _ e]

theorem writtenEdges_unique {faults : RelationshipId → Faults} {d e : GraphEdge}
    (hr : ∀ rel ∈ rows, rel ∈ σ.relationships)
    (hd : d ∈ rows.filterMap fun rel => σ.writtenEdge (faults rel.id) rel)
    (he : e ∈ rows.filterMap fun rel => σ.writtenEdge (faults rel.id) rel)
    (h : Keyed.key d = Keyed.key e) : d = e := by
  obtain ⟨r, hrd, _, rfl⟩ := mem_writtenEdges.mp hd
  obtain ⟨s, hre, _, rfl⟩ := mem_writtenEdges.mp he
  rw [Table.eq_of_key_eq (hr r hrd) (hr s hre) h]

-- The order of the rows makes no difference.
theorem foldl_applyRelationship_perm {faults : RelationshipId → Faults} {rows' : List Relationship}
    (hr : ∀ rel ∈ rows, rel ∈ σ.relationships) (hp : rows'.Perm rows) :
    rows'.foldl (fun g rel => (applyRelationship σ (faults rel.id) rel).exec g) {} =
      rows.foldl (fun g rel => (applyRelationship σ (faults rel.id) rel).exec g) {} := by
  rw [foldl_applyRelationship, foldl_applyRelationship]
  have hr' : ∀ rel ∈ rows', rel ∈ σ.relationships := fun rel h => hr rel (hp.subset h)
  congr 1
  case e_nodes =>
    refine Table.ext_mem fun n => ?_
    rw [Table.mem_foldl_put fun a ha b hb => writtenNodes_unique ha hb,
      Table.mem_foldl_put fun a ha b hb => writtenNodes_unique ha hb]
    simp [hp.mem_iff]
  case e_edges =>
    refine Table.ext_mem fun e => ?_
    rw [Table.mem_foldl_put fun a ha b hb => writtenEdges_unique hr' ha hb,
      Table.mem_foldl_put fun a ha b hb => writtenEdges_unique hr ha hb]
    simp [hp.mem_iff]

-- A rebuild comes to an end, takes each row of the table once, counts it by its outcome, and leaves
-- the graph which the events of the rows lead to in any order.
theorem rebuild_projects (σ : Store) (faults : RelationshipId → Faults) (g : GraphStore)
    (pageSize : Nat) (hu : ∀ rel ∈ σ.relationships,
      rel.id < 2 ^ 128 ∧ rel.sourceObjectId < 2 ^ 128 ∧ rel.targetObjectId < 2 ^ 128) :
    (∃ fuel, (rebuild σ faults { dropGraph := true, pageSize } g fuel).isSome) ∧
    ∀ fuel report g', rebuild σ faults { dropGraph := true, pageSize } g fuel = some (report, g') →
      (report, g') = σ.relationships.rows.reverse.foldl (rebuildRow σ faults) ({}, {}) ∧
      (∀ e, e ∈ g'.edges ↔
        ∃ rel ∈ σ.relationships, σ.Projects (faults rel.id) rel ∧ e = graphEdge rel) ∧
      (∀ rows : List Relationship, rows.Perm σ.relationships.rows →
        rows.foldl (fun g rel =>
          (processChange σ (faults rel.id) (relationshipChanged rel .upserted)).exec g) {} = g') ∧
      report.scanned = σ.relationships.rows.length ∧
      report.scanned = report.applied + report.skippedNonEntity + report.failed := by
  have hp : 0 < max 1 (min pageSize 100) := by omega
  have hm : max 1 (min pageSize 100) ≤ 100 := by omega
  have hs (fuel) : rebuild σ faults { dropGraph := true, pageSize } g fuel =
      rebuildLoop σ faults (max 1 (min pageSize 100)) fuel none ({}, {}) := rfl
  refine ⟨⟨_, hs _ ▸ rebuildLoop_terminates hp hm le_rfl⟩, fun fuel report g' h => ?_⟩
  have h : (report, g') = σ.relationships.rows.reverse.foldl (rebuildRow σ faults) ({}, {}) :=
    Table.remaining_none (t := σ.relationships) ▸ rebuildLoop_eq hp hm h
  have hg : g' = σ.relationships.rows.reverse.foldl
      (fun g rel => (applyRelationship σ (faults rel.id) rel).exec g) {} :=
    (congrArg Prod.snd h).trans foldl_rebuildRow_snd
  have hr : ∀ rel ∈ σ.relationships.rows.reverse, rel ∈ σ.relationships :=
    fun rel h => List.mem_reverse.mp h
  have hc : report = _ := (congrArg Prod.fst h).trans foldl_rebuildRow_fst
  refine ⟨h, fun e => ?edges, fun rows hperm => ?events, ?scanned, ?counts⟩
  case edges =>
    rw [hg, foldl_applyRelationship,
      Table.mem_foldl_put fun a ha b hb => writtenEdges_unique hr ha hb, mem_writtenEdges]
    simp only [Table.not_mem_empty, false_and, or_false, List.mem_reverse]
    rfl
  case events =>
    have hperm := hperm.trans (List.reverse_perm _).symm
    rw [hg, ← foldl_applyRelationship_perm hr hperm]
    refine List.foldl_ext _ _ _ fun g rel hrel => ?_
    have hrel := hr rel <| hperm.subset hrel
    rw [processChange_upserted hrel (hu rel hrel)]
  case scanned => simp [hc]
  case counts =>
    have := countP_outcomes σ faults σ.relationships.rows.reverse
    simp only [hc]
    omega

end

-- Two entities, a relationship between them, one of an article, and one from an entity to itself.
def threeRelationships : Store := .mk
  { entities := ((∅ : Table Entity).put
      ⟨1, .person, "a", "a", none, 1, 0, 0, none, .object []⟩).put
      ⟨2, .person, "b", "b", none, 1, 0, 0, none, .object []⟩
    relationships := (((∅ : Table Relationship).put ⟨5, 1, .uses, 2, 1, 0, 0, 1, 0, 0⟩).put
      ⟨6, 9, .mentions, 1, 1, 0, 0, 1, 0, 0⟩).put ⟨7, 1, .uses, 1, 1, 0, 0, 1, 0, 0⟩ }

theorem rebuild_projects_threeRelationships :
    (∃ fuel, (rebuild threeRelationships (fun _ _ => false) { dropGraph := true, pageSize := 1 } {}
      fuel).isSome) :=
  (rebuild_projects threeRelationships (fun _ _ => false) {} 1 (by decide)).left
