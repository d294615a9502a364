import OsintCore.Control.Run
import OsintCore.Projection.Neo4j

open Resumption

namespace Neo4jStore

variable {s s' s'' : Neo4jStore} {id : EntityId} {label extra : String} {n : GraphNode}

def Labelled (s : Neo4jStore) : Prop :=
  ∀ n ∈ s.nodes, ∀ l ∈ n.labels, l = "Entity" ∨ sanitizeLabel l = .ok l

-- The graph has changed in the properties and labels of its nodes at most.
structure SameShape (s s' : Neo4jStore) : Prop where
  nodes     : ∀ id, (s'.nodes.get? id).isSome = (s.nodes.get? id).isSome
  relations : s'.relations = s.relations
  labelled  : s.Labelled → s'.Labelled

theorem SameShape.trans (h : SameShape s s') (h' : SameShape s' s'') : SameShape s s'' where
  nodes id  := (h'.nodes id).trans (h.nodes id)
  relations := h'.relations.trans h.relations
  labelled  := h'.labelled ∘ h.labelled

theorem removeLabel_sameShape : SameShape s (removeLabel id extra s) := by
  unfold removeLabel
  split
  case h_2 => exact ⟨fun _ => rfl, rfl, fun h => h⟩
  case h_1 n hn =>
    have hk : n.entityId = id := Table.get?_key hn
    constructor
    case relations => rfl
    case nodes =>
      intro i
      simp only [Table.get?_put, Neo4jNode.key_eq, hk]
      split_ifs with h
      case pos => simp [← h, hn]
      case neg => rfl
    case labelled =>
      intro hl m hm l hl'
      cases Table.mem_put.mp hm
      case inl h => subst h; exact hl n (Table.get?_mem hn) l (List.mem_filter.mp hl').left
      case inr h => exact hl m h.left l hl'

-- The labels which a node has been given before are removed again without an error.
theorem removeExtra_run (id : EntityId) (label : String) (s : Neo4jStore)
    (h : extra = "Entity" ∨ sanitizeLabel extra = .ok extra) :
    ∃ s', (removeExtra id label extra).run s = (.ok (), s') ∧ SameShape s s' := by
  unfold removeExtra
  split_ifs with hn
  case neg => exact ⟨s, rfl, ⟨fun _ => rfl, rfl, fun h => h⟩⟩
  case pos =>
    rw [h.resolve_left hn.left]
    exact ⟨_, rfl, removeLabel_sameShape⟩

theorem forM_removeExtra_run (id : EntityId) (label : String) (s : Neo4jStore) {l : List String}
    (h : ∀ extra ∈ l, extra = "Entity" ∨ sanitizeLabel extra = .ok extra) :
    ∃ s', (l.forM (removeExtra id label)).run s = (.ok (), s') ∧ SameShape s s' := by
  induction l generalizing s
  case nil => exact ⟨s, rfl, ⟨fun _ => rfl, rfl, fun h => h⟩⟩
  case cons extra l hi =>
    have ⟨s', hr, hs⟩ := removeExtra_run id label s (h extra List.mem_cons_self)
    have ⟨s'', hr', hs'⟩ := hi s' fun extra he => h extra (List.mem_cons_of_mem _ he)
    refine ⟨s'', ?_, hs.trans hs'⟩
    change (removeExtra id label extra >>= fun _ => l.forM (removeExtra id label)).run s = _
    rw [run_bind, hr]
    exact hr'

theorem mergeNode_labels (hl : s.Labelled) (h : sanitizeLabel label = .ok label) :
    ∀ l ∈ (s.mergeNode n label).labels, l = "Entity" ∨ sanitizeLabel l = .ok l := by
  intro l hm
  simp only [mergeNode, List.mem_insert_iff] at hm
  obtain rfl | hm := hm
  case inl => exact .inr h
  case inr =>
    cases hn : s.nodes.get? n.entityId
    case none   => simp_all
    case some m => exact hl m (Table.get?_mem hn) l (by simpa [hn] using hm)

variable {toUppercase : Uppercase}

-- A legal name is all it takes to write a node.
theorem upsertNode_run (hl : s.Labelled) (h : sanitizeLabel (snakeToPascal toUppercase n.entityType) =
      .ok (snakeToPascal toUppercase n.entityType)) :
    ∃ s', (upsertNode toUppercase n).run s = (.ok (), s') ∧ s'.relations = s.relations ∧
      (∀ id, (s'.nodes.get? id).isSome ↔ id = n.entityId ∨ (s.nodes.get? id).isSome) ∧
      s'.Labelled := by
  let label := snakeToPascal toUppercase n.entityType
  let merged : Neo4jStore := { s with nodes := s.nodes.put (s.mergeNode n label) }
  have hm := mergeNode_labels (n := n) hl h
  have ⟨s', hr, hs⟩ := forM_removeExtra_run n.entityId label merged hm
  refine ⟨s', ?run, hs.relations, ?nodes, hs.labelled ?labelled⟩
  case run =>
    simp only [upsertNode, h, run_bind, Resumption.run]
    exact hr
  case nodes =>
    intro id
    rw [hs.nodes]
    simp only [merged, Table.get?_put, Neo4jNode.key_eq, mergeNode]
    split_ifs with hi
    case pos => simp [hi]
    case neg => simp [Ne.symm hi]
  case labelled =>
    intro m hm' l hl'
    cases Table.mem_put.mp hm'
    case inl h => subst h; exact hm l hl'
    case inr h => exact hl m h.left l hl'

theorem run_upsertEdge {e : GraphEdge} (hn : e.source ≠ e.target)
    (h : sanitizeRelType (toRelType e.relationshipType) = .ok (toRelType e.relationshipType)) :
    (upsertEdge e).run s = match mergeEdge e (toRelType e.relationshipType) s with
      | .ok s'       => (.ok (), s')
      | .error error => (.error error, s) := by
  simp only [upsertEdge, if_neg hn, h, run_write]
  cases mergeEdge e (toRelType e.relationshipType) s <;> rfl

-- Without both its ends nothing is written for an edge.
theorem upsertEdge_fails {e : GraphEdge}
    (h : e.source = e.target ∨ (s.nodes.get? e.source).isNone ∨ (s.nodes.get? e.target).isNone) :
    ∃ error, (upsertEdge e).run s = (.error error, s) := by
  by_cases hn : e.source = e.target
  case pos => exact ⟨_, by rw [upsertEdge, if_pos hn]; rfl⟩
  case neg =>
    simp only [upsertEdge, if_neg hn]
    split
    case h_1 error _ => exact ⟨error, rfl⟩
    case h_2         => exact ⟨_, by rw [run_write, mergeEdge, if_pos (h.resolve_left hn)]⟩

end Neo4jStore

-- An edge may have been written before its ends were.
def GraphStore.Connected (g : GraphStore) (e : GraphEdge) : Prop :=
  (g.nodes.get? e.source).isSome ∧ (g.nodes.get? e.target).isSome

instance {g : GraphStore} {e : GraphEdge} : Decidable (g.Connected e) :=
  inferInstanceAs (Decidable (_ ∧ _))

namespace GraphEdge

def relation (e : GraphEdge) : Neo4jRelation :=
  Neo4jStore.created e (toRelType e.relationshipType)

-- What the other graph tells two edges apart by.
def naturalKey (e : GraphEdge) : EntityId × String × EntityId :=
  (e.source, toRelType e.relationshipType, e.target)

end GraphEdge

namespace Neo4jStore

open GraphStore (Connected)

-- The same nodes, and the edges between them.
structure Refines (g : GraphStore) (s : Neo4jStore) : Prop where
  nodes    : ∀ id, (s.nodes.get? id).isSome ↔ (g.nodes.get? id).isSome
  edges    : ∀ r, r ∈ s.relations ↔ ∃ e ∈ g.edges, g.Connected e ∧ r = e.relation
  ids      : s.relations.Pairwise (·.relationshipId ≠ ·.relationshipId)
  labelled : s.Labelled

namespace Refines

variable {g : GraphStore} {s : Neo4jStore} {n : GraphNode} {e : GraphEdge} {id : EntityId}
  {toUppercase : Uppercase}

theorem deleteNode (h : Refines g s) (id : EntityId) :
    Refines { nodes := g.nodes.erase id, edges := g.edges.filter fun e => e.source ≠ id ∧ e.target ≠ id }
      ((Neo4jStore.deleteNode id).exec s) := by
  constructor
  case nodes =>
    intro i
    simp only [Neo4jStore.deleteNode, exec, run, Table.get?_erase]
    split_ifs with hi
    case pos => simp
    case neg => exact h.nodes i
  case edges =>
    intro r
    simp only [Neo4jStore.deleteNode, exec, run, List.mem_filter, h.edges, Table.mem_filter, Connected,
      Table.get?_erase, decide_eq_true_eq]
    constructor
    case mp =>
      rintro ⟨⟨e, he, hc, rfl⟩, hn⟩
      have hs : id ≠ e.source := Ne.symm hn.left
      have ht : id ≠ e.target := Ne.symm hn.right
      exact ⟨e, ⟨he, hn⟩, by rwa [if_neg hs, if_neg ht], rfl⟩
    case mpr =>
      rintro ⟨e, ⟨he, hn⟩, hc, rfl⟩
      rw [if_neg (Ne.symm hn.left), if_neg (Ne.symm hn.right)] at hc
      exact ⟨⟨e, he, hc, rfl⟩, hn⟩
  case ids      => exact h.ids.filter _
  case labelled => exact fun m hm => h.labelled m (Table.mem_erase.mp hm).left

theorem deleteEdge (h : Refines g s) (id : RelationshipId) :
    Refines { g with edges := g.edges.erase id } ((Neo4jStore.deleteEdge id).exec s) := by
  constructor
  case nodes => exact h.nodes
  case edges =>
    intro r
    simp only [Neo4jStore.deleteEdge, exec, run, List.mem_filter, h.edges, Table.mem_erase,
      decide_eq_true_eq]
    constructor
    case mp =>
      rintro ⟨⟨e, he, hc, rfl⟩, hn⟩
      exact ⟨e, ⟨he, hn⟩, hc, rfl⟩
    case mpr =>
      rintro ⟨e, ⟨he, hn⟩, hc, rfl⟩
      exact ⟨⟨e, he, hc, rfl⟩, hn⟩
  case ids      => exact h.ids.filter _
  case labelled => exact h.labelled

theorem upsertNode (h : Refines g s)
    (hl : sanitizeLabel (snakeToPascal toUppercase n.entityType) =
      .ok (snakeToPascal toUppercase n.entityType))
    (hc : ∀ e ∈ g.edges, Connected { g with nodes := g.nodes.put n } e → g.Connected e) :
    ∃ s', (Neo4jStore.upsertNode toUppercase n).run s = (.ok (), s') ∧
      Refines { g with nodes := g.nodes.put n } s' := by
  have ⟨s', hr, hs, hn, hl⟩ := upsertNode_run h.labelled hl
  have hg (id) : ((g.nodes.put n).get? id).isSome ↔ id = n.entityId ∨ (g.nodes.get? id).isSome := by
    rw [Table.get?_put, GraphNode.key_eq]
    split_ifs with hi
    case pos => simp [hi]
    case neg => simp [Ne.symm hi]
  refine ⟨s', hr, ?_⟩
  constructor
  case nodes => exact fun id => (hn id).trans <| (or_congr_right (h.nodes id)).trans (hg id).symm
  case edges =>
    intro r
    rw [hs, h.edges]
    constructor
    case mp =>
      intro ⟨e, he, hce, hr⟩
      exact ⟨e, he, ⟨(hg _).mpr (.inr hce.left), (hg _).mpr (.inr hce.right)⟩, hr⟩
    case mpr => exact fun ⟨e, he, hce, hr⟩ => ⟨e, he, hc e he hce, hr⟩
  case ids      => rw [hs]; exact h.ids
  case labelled => exact hl

-- An edge without its ends is not written, and must not stand for one which is.
theorem upsertEdge_dangling (h : Refines g s) (hn : ¬g.Connected e)
    (hc : ∀ d ∈ g.edges, d.relationshipId = e.relationshipId → ¬g.Connected d) :
    Refines { g with edges := g.edges.put e } ((Neo4jStore.upsertEdge e).exec s) := by
  have hn' : (s.nodes.get? e.source).isNone ∨ (s.nodes.get? e.target).isNone := by
    simp only [← Option.not_isSome_iff_eq_none, Option.isNone_iff_eq_none, h.nodes]
    exact not_and_or.mp hn
  have ⟨error, hr⟩ := upsertEdge_fails (e := e) (s := s) (.inr hn')
  rw [exec, hr]
  constructor
  case nodes    => exact h.nodes
  case ids      => exact h.ids
  case labelled => exact h.labelled
  case edges    =>
    intro r
    simp only [h.edges, Table.mem_put, GraphEdge.key_eq]
    constructor
    case mp  => exact fun ⟨d, hd, hcd, hr⟩ => ⟨d, .inr ⟨hd, fun hi => hc d hd hi hcd⟩, hcd, hr⟩
    case mpr =>
      rintro ⟨d, rfl | hd, hcd, hr⟩
      case inl => exact absurd hcd hn
      case inr => exact ⟨d, hd.left, hcd, hr⟩

-- An edge keeps its place: it is the only one with its id, and the only one between its ends.
def Placed (g : GraphStore) (e : GraphEdge) : Prop :=
  ∀ d ∈ g.edges, g.Connected d → d.relationshipId = e.relationshipId ∨ d.naturalKey = e.naturalKey →
    d.relationshipId = e.relationshipId ∧ d.naturalKey = e.naturalKey ∧
      rfc3339 d.firstSeen = rfc3339 e.firstSeen

-- The relations which a merge takes for the edge are those of its id.
theorem match_iff (h : Refines g s) (hp : Placed g e) {r : Neo4jRelation} (hr : r ∈ s.relations) :
    (r.source = e.source ∧ r.relType = toRelType e.relationshipType ∧ r.target = e.target) ↔
      r.relationshipId = e.relationshipId := by
  have ⟨d, hd, hc, he⟩ := (h.edges r).mp hr
  subst he
  constructor
  case mp  =>
    intro ⟨hs, hr, ht⟩
    have hk : d.naturalKey = e.naturalKey := Prod.ext hs (Prod.ext hr ht)
    exact (hp d hd hc (.inr hk)).left
  case mpr =>
    intro hi
    have hk := (hp d hd hc (.inl hi)).right.left
    exact ⟨congrArg Prod.fst hk, congrArg (·.snd.fst) hk, congrArg (·.snd.snd) hk⟩

-- What a merge makes of a relation which it takes for the edge.
theorem merged_eq (h : Refines g s) (hp : Placed g e) {r : Neo4jRelation} (hr : r ∈ s.relations)
    (hi : r.relationshipId = e.relationshipId) : { r with
      confidence       := e.confidence
      lastSeen         := rfc3339 e.lastSeen
      relationshipType := e.relationshipType } = e.relation := by
  have hm := (h.match_iff hp hr).mpr hi
  have ⟨d, hd, hc, he⟩ := (h.edges r).mp hr
  have hf : r.firstSeen = rfc3339 e.firstSeen := by
    subst he
    exact (hp d hd hc (.inl hi)).right.right
  cases r
  simp_all [GraphEdge.relation, created]

theorem mem_put_relation (h : Refines g s) (hc : g.Connected e) {r : Neo4jRelation} :
    (∃ d ∈ g.edges.put e, g.Connected d ∧ r = d.relation) ↔
      r = e.relation ∨ r ∈ s.relations ∧ r.relationshipId ≠ e.relationshipId := by
  simp only [Table.mem_put, GraphEdge.key_eq, h.edges]
  constructor
  case mp =>
    rintro ⟨d, rfl | ⟨hd, hi⟩, hcd, rfl⟩
    case inl => exact .inl rfl
    case inr => exact .inr ⟨⟨d, hd, hcd, rfl⟩, hi⟩
  case mpr =>
    rintro (rfl | ⟨⟨d, hd, hcd, rfl⟩, hi⟩)
    case inl => exact ⟨e, .inl rfl, hc, rfl⟩
    case inr => exact ⟨d, .inr ⟨hd, hi⟩, hcd, rfl⟩

-- The relations of the edge's id are written over.
theorem update (h : Refines g s) (hc : g.Connected e)
    (hi : ∃ r ∈ s.relations, r.relationshipId = e.relationshipId) :
    Refines { g with edges := g.edges.put e } { s with
      relations := s.relations.map fun r =>
        if r.relationshipId = e.relationshipId then e.relation else r } := by
  refine ⟨h.nodes, fun r => .trans ?edges (h.mem_put_relation hc).symm, ?ids, h.labelled⟩
  case edges =>
    rw [List.mem_map]
    constructor
    case mp =>
      intro ⟨q, hq, hr⟩
      split_ifs at hr with hi
      case pos => exact .inl hr.symm
      case neg => exact .inr ⟨hr ▸ hq, hr ▸ hi⟩
    case mpr =>
      rintro (rfl | ⟨hr, hn⟩)
      case inl =>
        have ⟨q, hq, hi⟩ := hi
        exact ⟨q, hq, if_pos hi⟩
      case inr => exact ⟨r, hr, if_neg hn⟩
  case ids =>
    have hid (r : Neo4jRelation) : (if r.relationshipId = e.relationshipId then e.relation else
        r).relationshipId = r.relationshipId := by
      split_ifs with hi
      case pos => exact hi.symm
      case neg => rfl
    simp only [List.pairwise_map, hid]
    exact h.ids

theorem create (h : Refines g s) (hc : g.Connected e)
    (hi : ∀ r ∈ s.relations, r.relationshipId ≠ e.relationshipId) :
    Refines { g with edges := g.edges.put e } { s with
      relations := e.relation :: s.relations } := by
  refine ⟨h.nodes, fun r => .trans ?edges (h.mem_put_relation hc).symm, ?ids, h.labelled⟩
  case edges => exact List.mem_cons.trans <| or_congr_right ⟨fun hr => ⟨hr, hi r hr⟩, And.left⟩
  case ids   => exact .cons (fun r hr => (hi r hr).symm) h.ids

theorem mergeEdge_ok (h : Refines g s) (hc : g.Connected e) (hp : Placed g e) :
    ∃ s', mergeEdge e (toRelType e.relationshipType) s = .ok s' ∧
      Refines { g with edges := g.edges.put e } s' := by
  have hn : ¬((s.nodes.get? e.source).isNone ∨ (s.nodes.get? e.target).isNone) := by
    simp only [← Option.not_isSome_iff_eq_none, Option.isNone_iff_eq_none, h.nodes, not_or, not_not]
    exact hc
  by_cases hi : ∃ r ∈ s.relations, r.relationshipId = e.relationshipId
  case pos =>
    have ⟨r, hr, hri⟩ := hi
    have hm := (h.match_iff hp hr).mpr hri
    refine ⟨_, ?_, h.update hc hi⟩
    rw [mergeEdge, if_neg hn, if_pos (List.any_eq_true.mpr ⟨r, hr, decide_eq_true hm⟩)]
    congr 2
    apply List.map_congr_left
    intro r hr
    simp only [decide_eq_true_eq, h.match_iff hp hr]
    split_ifs with hri
    case pos => exact h.merged_eq hp hr hri
    case neg => rfl
  case neg =>
    have hi : ∀ r ∈ s.relations, r.relationshipId ≠ e.relationshipId :=
      fun r hr hri => hi ⟨r, hr, hri⟩
    refine ⟨_, ?_, h.create hc hi⟩
    have ha : ¬s.relations.any fun r =>
        r.source = e.source ∧ r.relType = toRelType e.relationshipType ∧ r.target = e.target := by
      rw [List.any_eq_true]
      intro ⟨r, hr, hm⟩
      exact hi r hr <| (h.match_iff hp hr).mp (of_decide_eq_true hm)
    have hu : ¬(toRelType e.relationshipType ∈ knownRelationshipTypes ∧ ∃ r ∈ s.relations,
        r.relType = toRelType e.relationshipType ∧ r.relationshipId = e.relationshipId) :=
      fun ⟨_, r, hr, _, hri⟩ => hi r hr hri
    rw [mergeEdge, if_neg hn, if_neg ha, if_neg hu]
    rfl

end Refines

inductive GraphOp
  | upsertNode (n : GraphNode)
  | upsertEdge (e : GraphEdge)
  | deleteNode (id : EntityId)
  | deleteEdge (id : RelationshipId)

namespace GraphOp

-- The operation on the reference graph.
def onMock (g : GraphStore) : GraphOp → Except GraphStoreError GraphStore
  | upsertNode n  => g.upsertNode n
  | upsertEdge e  => g.upsertEdge e
  | deleteNode id => g.deleteNode id
  | deleteEdge id => g.deleteEdge id

def onNeo4j (toUppercase : Uppercase) : GraphOp → Querying Unit
  | upsertNode n  => Neo4jStore.upsertNode toUppercase n
  | upsertEdge e  => Neo4jStore.upsertEdge e
  | deleteNode id => Neo4jStore.deleteNode id
  | deleteEdge id => Neo4jStore.deleteEdge id

end GraphOp

section

variable (toUppercase : Uppercase)

-- Both graphs are given the same operations. One which fails on the reference graph changes nothing.
def step (p : GraphStore × Neo4jStore) (op : GraphOp) : GraphStore × Neo4jStore :=
  ((op.onMock p.fst).toOption.getD p.fst, (op.onNeo4j toUppercase).exec p.snd)

-- The operation succeeds on both graphs or on none, unless it writes an edge without its ends.
def SameOutcome (p : GraphStore × Neo4jStore) (op : GraphOp) : Prop :=
  (∀ e, op = .upsertEdge e → e.source = e.target ∨ p.fst.Connected e) →
    ((op.onMock p.fst).isOk ↔ ((op.onNeo4j toUppercase).run p.snd).fst.isOk)

-- Names are legal, an edge keeps its place, and no edge waits for its ends or is left without them.
def Orderly (p : GraphStore × Neo4jStore) : GraphOp → Prop
  | .upsertNode n =>
    sanitizeLabel (snakeToPascal toUppercase n.entityType) =
      .ok (snakeToPascal toUppercase n.entityType) ∧
    ∀ e ∈ p.fst.edges, Connected { p.fst with nodes := p.fst.nodes.put n } e → p.fst.Connected e
  | .upsertEdge e => e.source ≠ e.target →
    if p.fst.Connected e then
      sanitizeRelType (toRelType e.relationshipType) = .ok (toRelType e.relationshipType) ∧
      Refines.Placed p.fst e
    else ∀ d ∈ p.fst.edges, d.relationshipId = e.relationshipId → ¬p.fst.Connected d
  | .deleteNode _ => True
  | .deleteEdge _ => True

variable {toUppercase} {p : GraphStore × Neo4jStore} {op : GraphOp}

instance {g : GraphStore} {e : GraphEdge} : Decidable (Refines.Placed g e) :=
  inferInstanceAs (Decidable (∀ d ∈ g.edges.rows, _))

instance : Decidable (Orderly toUppercase p op) :=
  match op with
  | .upsertNode _ => inferInstanceAs (Decidable (_ ∧ ∀ e ∈ p.fst.edges.rows, _))
  | .upsertEdge e =>
    have : Decidable (∀ d ∈ p.fst.edges, d.relationshipId = e.relationshipId → ¬p.fst.Connected d) :=
      inferInstanceAs (Decidable (∀ d ∈ p.fst.edges.rows, _))
    inferInstanceAs (Decidable (e.source ≠ e.target → ite _ _ _))
  | .deleteNode _ => .isTrue trivial
  | .deleteEdge _ => .isTrue trivial

theorem step_refines (h : Refines p.fst p.snd) (ho : Orderly toUppercase p op) :
    Refines (step toUppercase p op).fst (step toUppercase p op).snd ∧
      SameOutcome toUppercase p op := by
  cases op
  case upsertNode n =>
    have ⟨s', hr, hs⟩ := h.upsertNode ho.left ho.right
    simp only [step, SameOutcome, GraphOp.onMock, GraphOp.onNeo4j, exec, hr]
    exact ⟨hs, fun _ => by simp [GraphStore.upsertNode, Except.isOk, Except.toBool]⟩
  case upsertEdge e =>
    by_cases hn : e.source = e.target
    case pos =>
      have ⟨error, hr⟩ := upsertEdge_fails (e := e) (s := p.snd) (.inl hn)
      simp only [step, SameOutcome, GraphOp.onMock, GraphOp.onNeo4j, exec, hr, GraphStore.upsertEdge,
        if_pos hn]
      exact ⟨h, fun _ => by simp [Except.isOk, Except.toBool]⟩
    case neg =>
      have ho := ho hn
      by_cases hc : p.fst.Connected e
      case pos =>
        rw [if_pos hc] at ho
        have ⟨hl, hp⟩ := ho
        have ⟨s', hm, hs⟩ := h.mergeEdge_ok hc hp
        have hr : (upsertEdge e).run p.snd = (.ok (), s') := by rw [run_upsertEdge hn hl, hm]
        simp only [step, SameOutcome, GraphOp.onMock, GraphOp.onNeo4j, exec, hr,
          GraphStore.upsertEdge, if_neg hn]
        exact ⟨hs, fun _ => by simp [Except.isOk, Except.toBool]⟩
      case neg =>
        rw [if_neg hc] at ho
        have hs := h.upsertEdge_dangling hc ho
        simp only [step, SameOutcome, GraphOp.onMock, GraphOp.onNeo4j, GraphStore.upsertEdge,
          if_neg hn]
        exact ⟨hs, fun he => absurd (he e rfl) (not_or.mpr ⟨hn, hc⟩)⟩
  case deleteNode id => exact ⟨h.deleteNode id, fun _ => by rfl⟩
  case deleteEdge id => exact ⟨h.deleteEdge id, fun _ => by rfl⟩

-- As long as the operations are orderly, both graphs hold the same edges between the same nodes, and
-- each operation has the same outcome on both.
theorem run_refines (toUppercase : Uppercase) (p : GraphStore × Neo4jStore) (l : List GraphOp)
    (h : Refines p.fst p.snd) (hl : l.Along (step toUppercase) (Orderly toUppercase) p) :
    Refines (l.foldl (step toUppercase) p).fst (l.foldl (step toUppercase) p).snd ∧
      l.Along (step toUppercase) (SameOutcome toUppercase) p :=
  hl.invariant (P := fun p => Refines p.fst p.snd) h fun _ _ => step_refines

end

theorem refines_empty : Refines {} {} where
  nodes _   := .rfl
  edges _   := ⟨fun h => absurd h List.not_mem_nil, fun ⟨_, h, _⟩ => absurd h Table.not_mem_empty⟩
  ids       := .nil
  labelled  := fun _ h => absurd h Table.not_mem_empty

def asciiUppercase : Uppercase :=
  fun c => [c.toUpper]

-- A relationship is repointed from one of three persons to another.
def repoint (source : EntityId) : List GraphOp :=
  [1, 2, 3].map (fun id => .upsertNode ⟨id, "threat_actor", "", .null⟩) ++
    [.upsertEdge ⟨5, 1, 2, "uses", 1, 0, 0⟩, .upsertEdge ⟨5, source, 2, "uses", 1, 0, 7⟩]

theorem run_refines_repoint : Refines
    ((repoint 1).foldl (step asciiUppercase) ({}, {})).fst
    ((repoint 1).foldl (step asciiUppercase) ({}, {})).snd := by
  apply run_refines asciiUppercase ({}, {}) (repoint 1) refines_empty ?_ |>.left
  decide +kernel

-- The edge of the reference graph moves, the one of the other graph does not.
theorem not_run_refines : ¬∀ l : List GraphOp,
    l.Along (step asciiUppercase) (fun p op => (step asciiUppercase p op).fst.edges.Unique
      (some <| GraphEdge.naturalKey ·)) ({}, {}) →
    Refines (l.foldl (step asciiUppercase) ({}, {})).fst (l.foldl (step asciiUppercase) ({}, {})).snd ∧
      l.Along (step asciiUppercase) (SameOutcome asciiUppercase) ({}, {}) := by
  intro h
  have ⟨hr, _⟩ := h (repoint 3) (by decide +kernel)
  have he : ¬(GraphEdge.mk 5 3 2 "uses" 1 0 7).relation ∈
    ((repoint 3).foldl (step asciiUppercase) ({}, {})).snd.relations := by decide +kernel
  refine he <| (hr.edges _).mpr ⟨⟨5, 3, 2, "uses", 1, 0, 7⟩, ?_, by decide +kernel, rfl⟩
  rw [Table.mem_def]
  decide +kernel

end Neo4jStore
