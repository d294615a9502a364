import OsintCore.Control.Run
import OsintCore.Projection.Theorems.Rebuild
import OsintCore.Storage.Theorems.Put

open Resumption

-- An announcement of a change, and whether it has been handled at least once.
structure RelationshipEvent where
  payload : Json
  handled : Bool

-- The store, the graph which follows it, and everything which has been announced so far.
structure ProjectionSystem where
  store  : Store
  graph  : GraphStore
  events : List RelationshipEvent

namespace ProjectionSystem

-- An event may be handled whenever it has been announced, and again afterwards. A call may fail.
inductive Action
  | upsert (rel : Relationship)
  | delete (id : RelationshipId)
  | handle (k : Nat) (faults : Faults)

def announce (s : ProjectionSystem) (σ : Store) (rel : Relationship) (kind : ChangeKind) :
    ProjectionSystem where
  store  := σ
  graph  := s.graph
  events := s.events ++ [⟨relationshipChanged rel kind, false⟩]

def step (s : ProjectionSystem) : Action → ProjectionSystem
  | .upsert rel =>
    match s.store.putRelationship rel with
    | .error _ => s
    | .ok σ    => s.announce σ rel .upserted
  | .delete id =>
    match s.store.getRelationship id with
    | none     => s
    | some rel => s.announce (s.store.deleteRelationship id) rel .deleted
  | .handle k faults =>
    match s.events[k]? with
    | none   => s
    | some e =>
      match (processChange s.store faults e.payload).run s.graph with
      | (.error _, g) => { s with graph := g }
      | (.ok _, g)    => { s with graph := g, events := s.events.set k { e with handled := true } }

def run (s : ProjectionSystem) (l : List Action) : ProjectionSystem :=
  l.foldl step s

-- The relationship whose change the `k`-th event announces, and the kind of the change.
def Announces (s : ProjectionSystem) (k : Nat) (id : RelationshipId) (kind : ChangeKind) : Prop :=
  ∃ e parsed, s.events[k]? = some e ∧ parseChange e.payload = .ok parsed ∧
    parsed.relationshipId = id ∧ parsed.kind = kind

def Pending (s : ProjectionSystem) (k : Nat) : Prop :=
  ∃ e, s.events[k]? = some e ∧ e.handled = false

-- The graph has the edges of those relationships whose ends are both entities, and no others.
def Projected (s : ProjectionSystem) : Prop :=
  ∀ e, e ∈ s.graph.edges ↔
    ∃ rel ∈ s.store.relationships, s.store.BetweenEntities rel ∧ e = graphEdge rel

-- The relationship is stored, and both its ends are entities.
def Edged (s : ProjectionSystem) (id : RelationshipId) : Prop :=
  ∃ rel, s.store.getRelationship id = some rel ∧ s.store.BetweenEntities rel

-- Handling such an event gives its relationship the edge it should have: a deletion if there should
-- be none, anything else unless an edge is left over from before an end ceased to be an entity.
def Mends (s : ProjectionSystem) (id : RelationshipId) : ChangeKind → Prop
  | .deleted  => ¬s.Edged id
  | .upserted => s.Edged id ∨ s.store.getRelationship id = none ∨ s.graph.edges.get? id = none

-- The `k`-th event has not been handled yet, and what the relationship should be is still open.
def Awaits (s : ProjectionSystem) (k : Nat) (id : RelationshipId) : Prop :=
  s.Pending k ∧ (s.Announces k id .upserted ∨ s.Announces k id .deleted ∧ ¬s.Edged id)

-- An event which does not mend its relationship is not the last one to be handled.
def Harmless (s : ProjectionSystem) : Action → Prop
  | .handle k _ => ∀ id kind, s.Announces k id kind → s.Mends id kind ∨ ∃ j ≠ k, s.Awaits j id
  | _           => True

variable {s : ProjectionSystem} {σ : Store} {g : GraphStore} {id : RelationshipId} {kind : ChangeKind}
  {j k : Nat}

-- The edge which a relationship should have.
def edgeOf (σ : Store) (id : RelationshipId) : Option GraphEdge :=
  σ.getRelationship id |>.bind fun rel => if σ.BetweenEntities rel then some (graphEdge rel) else none

def Right (s : ProjectionSystem) (id : RelationshipId) : Prop :=
  s.graph.edges.get? id = edgeOf s.store id

-- The edge of each relationship is right, or an event is still to come which sets it right.
def Converging (s : ProjectionSystem) : Prop :=
  ∀ id, s.Right id ∨ ∃ k, s.Awaits k id

def Numbered (s : ProjectionSystem) : Prop :=
  ∀ rel ∈ s.store.relationships,
    rel.id < 2 ^ 128 ∧ rel.sourceObjectId < 2 ^ 128 ∧ rel.targetObjectId < 2 ^ 128

theorem edgeOf_eq_some {e : GraphEdge} : edgeOf σ id = some e ↔
    ∃ rel ∈ σ.relationships, σ.BetweenEntities rel ∧ e = graphEdge rel ∧ rel.id = id := by
  simp only [edgeOf, Option.bind_eq_some_iff, Option.ite_none_right_eq_some, Option.some.injEq,
    Store.getRelationship, Table.get?_eq_some]
  exact ⟨fun ⟨rel, ⟨hm, hk⟩, hb, he⟩ => ⟨rel, hm, hb, he.symm, hk⟩,
    fun ⟨rel, hm, hb, he, hk⟩ => ⟨rel, ⟨hm, hk⟩, hb, he.symm⟩⟩

theorem projected_iff : s.Projected ↔ ∀ id, s.Right id := by
  constructor
  case mp =>
    intro h id
    apply Option.ext
    intro e
    rw [Table.get?_eq_some, h, edgeOf_eq_some]
    constructor
    case mp  => exact fun ⟨⟨rel, hm, hb, he⟩, hk⟩ => ⟨rel, hm, hb, he, by subst he; exact hk⟩
    case mpr => exact fun ⟨rel, hm, hb, he, hk⟩ => ⟨⟨rel, hm, hb, he⟩, by subst he; exact hk⟩
  case mpr =>
    intro h e
    rw [Table.mem_iff_get?, h, edgeOf_eq_some]
    exact ⟨fun ⟨rel, hm, hb, he, _⟩ => ⟨rel, hm, hb, he⟩,
      fun ⟨rel, hm, hb, he⟩ => ⟨rel, hm, hb, he, he ▸ rfl⟩⟩

theorem edgeOf_of_get? {rel : Relationship} (h : σ.getRelationship id = some rel) :
    edgeOf σ id = if σ.BetweenEntities rel then some (graphEdge rel) else none := by
  simp [edgeOf, h]

theorem edgeOf_of_not_edged (h : ¬s.Edged id) : edgeOf s.store id = none := by
  cases hr : s.store.getRelationship id
  case none     => simp [edgeOf, hr]
  case some rel => exact (edgeOf_of_get? hr).trans <| if_neg fun hb => h ⟨rel, hr, hb⟩

-- What a call writes to the edges: an event about another relationship leaves an edge alone, and one
-- which mends its relationship sets the edge right. A call which fails has set no edge.
def Sets (s : ProjectionSystem) (parsed : ParsedChange) (g : GraphStore) : Prop :=
  (∀ id ≠ parsed.relationshipId, g.edges.get? id = s.graph.edges.get? id) ∧
  (s.Mends parsed.relationshipId parsed.kind →
    g.edges.get? parsed.relationshipId = edgeOf s.store parsed.relationshipId)

theorem deleteEdge_ensures {faulty : Bool} {parsed : ParsedChange} {outcome : ProcessOutcome}
    (h : s.Mends parsed.relationshipId parsed.kind → edgeOf s.store parsed.relationshipId = none) :
    (writeGraph faulty (·.deleteEdge parsed.relationshipId) >>= fun _ => pure outcome).Ensures
      s.graph (fun _ g => s.Sets parsed g) fun _ g => g.edges = s.graph.edges := by
  simp only [Ensures, run_writeGraph_bind, GraphStore.deleteEdge]
  cases faulty
  case true => rfl
  case false =>
    constructor
    case left  => exact fun id hn => by simp [hn.symm]
    case right => exact fun hm => by simp [h hm]

theorem applyRelationship_ensures {faults : Faults} {parsed : ParsedChange} {rel : Relationship}
    (hk : parsed.kind = .upserted) (hr : s.store.getRelationship parsed.relationshipId = some rel) :
    (applyRelationship s.store faults rel).Ensures s.graph (fun _ g => s.Sets parsed g)
      fun _ g => g.edges = s.graph.edges := by
  have hi : rel.id = parsed.relationshipId := Table.get?_key hr
  by_cases h : s.store.Projects faults rel
  case pos =>
    apply Ensures.of_run (Store.applyRelationship_applies h s.graph)
    constructor
    case left  => exact fun id hn => by simp [graphEdge, hi, hn.symm]
    case right => exact fun _ => by simp [edgeOf_of_get? hr, h.left, graphEdge, hi]
  case neg =>
    by_cases hb : s.store.BetweenEntities rel
    case pos =>
      obtain ⟨e, he⟩ := Store.applyRelationship_fails h hb s.graph
      simp only [Ensures, he]
    case neg =>
      apply Ensures.of_run (Store.applyRelationship_skips hb s.graph)
      refine ⟨fun _ _ => rfl, fun hm => ?_⟩
      have hn : ¬s.Edged parsed.relationshipId := by
        rintro ⟨rel', hr', hb'⟩
        cases hr.symm.trans hr'
        exact hb hb'
      rw [edgeOf_of_not_edged hn]
      rw [hk] at hm
      exact (hm.resolve_left hn).resolve_left (by simp [hr])

theorem applyChange_ensures (s : ProjectionSystem) (faults : Faults) (parsed : ParsedChange) :
    (applyChange s.store faults parsed).Ensures s.graph (fun _ g => s.Sets parsed g)
      fun _ g => g.edges = s.graph.edges := by
  unfold applyChange
  split
  case h_1 hk => exact deleteEdge_ensures fun hm => edgeOf_of_not_edged (by rwa [hk] at hm)
  case h_2 hk =>
    split
    case h_1 hr     => exact deleteEdge_ensures fun _ => by simp [edgeOf, hr]
    case h_2 rel hr => exact applyRelationship_ensures hk hr

-- The relationship and its ends are left alone.
structure Keeps (s s' : ProjectionSystem) (id : RelationshipId) : Prop where
  row  : s'.store.getRelationship id = s.store.getRelationship id
  ends : s'.store.entities = s.store.entities

namespace Keeps

variable {s' : ProjectionSystem}

theorem betweenEntities (h : Keeps s s' id) (rel : Relationship) :
    s'.store.BetweenEntities rel ↔ s.store.BetweenEntities rel := by
  simp only [Store.BetweenEntities, Store.getEntity, h.ends]

theorem edged (h : Keeps s s' id) : s'.Edged id ↔ s.Edged id := by
  simp only [Edged, h.row, h.betweenEntities]

theorem right (h : Keeps s s' id) (he : s'.graph.edges.get? id = s.graph.edges.get? id)
    (hr : s.Right id) : s'.Right id := by
  simp only [Right, edgeOf, he, h.row, h.betweenEntities]
  exact hr

theorem awaits (h : Keeps s s' id) (he : s'.events[k]? = s.events[k]?) (ha : s.Awaits k id) :
    s'.Awaits k id := by
  simp only [Awaits, Pending, Announces, he, h.edged]
  exact ha

end Keeps

variable {s' : ProjectionSystem} {rel : Relationship} {faults : Faults}

theorem announces_iff {handled : Bool} {kind' : ChangeKind}
    (he : s.events[k]? = some ⟨relationshipChanged rel kind, handled⟩)
    (hu : rel.id < 2 ^ 128 ∧ rel.sourceObjectId < 2 ^ 128 ∧ rel.targetObjectId < 2 ^ 128) :
    s.Announces k id kind' ↔ rel.id = id ∧ kind = kind' := by
  simp [Announces, he, parseChange_relationshipChanged hu.left hu.right.left hu.right.right]

-- A change is announced by an event which is still to be handled.
theorem announces_announce (s : ProjectionSystem) (σ : Store) (kind : ChangeKind)
    (hu : rel.id < 2 ^ 128 ∧ rel.sourceObjectId < 2 ^ 128 ∧ rel.targetObjectId < 2 ^ 128) :
    (s.announce σ rel kind).Pending s.events.length ∧
      (s.announce σ rel kind).Announces s.events.length rel.id kind := by
  have he : (s.announce σ rel kind).events[s.events.length]? =
      some ⟨relationshipChanged rel kind, false⟩ := by simp [announce]
  exact ⟨⟨_, he, rfl⟩, (announces_iff he hu).mpr ⟨rfl, rfl⟩⟩

-- The other relationships are where they were.
theorem Keeps.announce (h : Keeps s (s.announce σ rel kind) id)
    (hc : s.Right id ∨ ∃ k, s.Awaits k id) :
    (s.announce σ rel kind).Right id ∨ ∃ k, (s.announce σ rel kind).Awaits k id := by
  cases hc
  case inl hr => exact .inl <| h.right rfl hr
  case inr ha =>
    have ⟨k, ha⟩ := ha
    have ⟨⟨_, hk, _⟩, _⟩ := ha
    have hk : k < s.events.length := (List.getElem?_eq_some_iff.mp hk).choose
    exact .inr ⟨k, h.awaits (List.getElem?_append_left hk) ha⟩

theorem converging_upsert (hc : s.Converging)
    (hu : rel.id < 2 ^ 128 ∧ rel.sourceObjectId < 2 ^ 128 ∧ rel.targetObjectId < 2 ^ 128) :
    (s.step (.upsert rel)).Converging := by
  intro id
  simp only [step]
  split
  case h_1      => exact hc id
  case h_2 σ hσ =>
    have ht := (Store.putRelationship_eq_ok.mp hσ).right
    by_cases hi : rel.id = id
    case pos =>
      have ⟨hp, ha⟩ := announces_announce s σ .upserted hu
      exact .inr ⟨_, hp, .inl (hi ▸ ha)⟩
    case neg =>
      apply Keeps.announce _ (hc id)
      exact { row := by simp [announce, Store.getRelationship, ht, hi], ends := by simp [announce, ht] }

theorem converging_delete (hc : s.Converging) (hn : s.Numbered) :
    (s.step (.delete id)).Converging := by
  intro id'
  simp only [step]
  split
  case h_1        => exact hc id'
  case h_2 rel hr =>
    have hi : rel.id = id := Table.get?_key hr
    by_cases hi' : id = id'
    case pos =>
      have ⟨hp, ha⟩ := announces_announce s (s.store.deleteRelationship id) .deleted <|
        hn rel (Table.get?_mem hr)
      refine .inr ⟨_, hp, .inr ⟨hi' ▸ hi ▸ ha, fun ⟨rel', hr', _⟩ => ?_⟩⟩
      simp [announce, Store.getRelationship, hi'] at hr'
    case neg =>
      apply Keeps.announce _ (hc id')
      exact { row := by simp [announce, Store.getRelationship, hi'], ends := rfl }

-- Of the events, only the one which has been handled is no longer pending.
theorem converging_handled {e : RelationshipEvent} {parsed : ParsedChange} (hc : s.Converging)
    (hh : s.Harmless (.handle k faults)) (he : s.events[k]? = some e)
    (hp : parseChange e.payload = .ok parsed) (hs : s.Sets parsed g) :
    Converging { s with graph := g, events := s.events.set k { e with handled := true } } := by
  intro id
  have hk : Keeps s { s with graph := g, events := s.events.set k { e with handled := true } } id :=
    { row := rfl, ends := rfl }
  by_cases hi : id = parsed.relationshipId
  case pos =>
    subst hi
    cases hh _ _ ⟨e, parsed, he, hp, rfl, rfl⟩
    case inl hm => exact .inl (hs.right hm)
    case inr ha =>
      have ⟨j, hj, ha⟩ := ha
      exact .inr ⟨j, hk.awaits (List.getElem?_set_ne hj.symm) ha⟩
  case neg =>
    cases hc id
    case inl hr => exact .inl <| hk.right (hs.left id hi) hr
    case inr ha =>
      have ⟨j, ha⟩ := ha
      have hj : k ≠ j := by
        rintro rfl
        have ⟨_, e', parsed', he', hp', hi', _⟩ : ∃ kind, s.Announces k id kind :=
          ha.right.elim (⟨_, ·⟩) (⟨_, ·.left⟩)
        cases he.symm.trans he'
        cases hp.symm.trans hp'
        exact hi hi'.symm
      exact .inr ⟨j, hk.awaits (List.getElem?_set_ne hj) ha⟩

theorem converging_handle (hc : s.Converging) (hh : s.Harmless (.handle k faults)) :
    (s.step (.handle k faults)).Converging := by
  simp only [step]
  split
  case h_1      => exact hc
  case h_2 e he =>
    have hf {g : GraphStore} (hg : g.edges = s.graph.edges) : Converging { s with graph := g } := by
      intro id
      have hk : Keeps s { s with graph := g } id := { row := rfl, ends := rfl }
      exact (hc id).imp (hk.right (by rw [hg])) fun ⟨k, ha⟩ => ⟨k, hk.awaits rfl ha⟩
    cases hp : parseChange e.payload
    case error _ =>
      simp only [processChange, hp]
      exact hf rfl
    case ok parsed =>
      have hs := applyChange_ensures s faults parsed
      simp only [processChange, hp]
      unfold Ensures at hs
      split
      case h_1 hr   => exact hf (by simpa [hr] using hs)
      case h_2 g hr => exact converging_handled hc hh he hp (by simpa [hr] using hs)

-- The rows and the rows to come have ids which can be read back.
theorem numbered_step {a : Action} (hn : s.Numbered) (hu : ∀ rel, a = .upsert rel →
      rel.id < 2 ^ 128 ∧ rel.sourceObjectId < 2 ^ 128 ∧ rel.targetObjectId < 2 ^ 128) :
    (s.step a).Numbered := by
  cases a
  case upsert rel =>
    simp only [step]
    split
    case h_1      => exact hn
    case h_2 σ hσ =>
      intro rel' hr
      rw [announce, (Store.putRelationship_eq_ok.mp hσ).right, Table.mem_put] at hr
      cases hr
      case inl h => exact h ▸ hu rel rfl
      case inr h => exact hn rel' h.left
  case delete id =>
    simp only [step]
    split
    case h_1 => exact hn
    case h_2 => exact fun rel hr => hn rel (Table.mem_erase.mp hr).left
  case handle k faults =>
    have hs : (s.step (.handle k faults)).store = s.store := by
      simp only [step]
      split
      case h_1 => rfl
      case h_2 => split <;> rfl
    intro rel hr
    exact hn rel (by rwa [hs] at hr)

-- Once all which was announced has been handled, nothing is awaited any more.
theorem Converging.projected (hc : s.Converging) (hh : ∀ e ∈ s.events, e.handled) : s.Projected := by
  apply projected_iff.mpr
  intro id
  cases hc id
  case inl hr => exact hr
  case inr ha =>
    have ⟨k, ⟨e, he, hn⟩, _⟩ := ha
    have := hh e (List.mem_of_getElem? he)
    simp_all

-- If the graph agrees with the store at first, it agrees again whenever each change announced since
-- then has been handled, in whatever order and however often, provided that no event which does not
-- mend its relationship was handled last.
theorem run_projected (s : ProjectionSystem) (l : List Action) (hp : s.Projected) (hn : s.Numbered)
    (hu : ∀ rel, .upsert rel ∈ l →
      rel.id < 2 ^ 128 ∧ rel.sourceObjectId < 2 ^ 128 ∧ rel.targetObjectId < 2 ^ 128)
    (hl : l.Along step Harmless s) (hh : ∀ e ∈ (s.run l).events, e.handled) :
    (s.run l).Projected := by
  have ⟨hc, _⟩ : (s.run l).Converging ∧ (s.run l).Numbered := by
    refine (hl.and_mem (p := fun a => ∀ rel, a = .upsert rel → _) fun a ha rel he => hu rel (he ▸ ha))
      |>.foldl (P := fun s => s.Converging ∧ s.Numbered) ?start ?step
    case start => exact ⟨fun id => .inl <| projected_iff.mp hp id, hn⟩
    case step =>
      intro s a ⟨hc, hn⟩ ⟨hh, hu⟩
      refine ⟨?_, numbered_step hn hu⟩
      cases a
      case upsert rel      => exact converging_upsert hc (hu rel rfl)
      case delete id       => exact converging_delete hc hn
      case handle k faults => exact converging_handle hc hh
  exact hc.projected hh

-- Two entities and no relationship.
def twoEntities : ProjectionSystem where
  store  := .mk { entities := threeRelationships.entities }
  graph  := {}
  events := []

def uses : Relationship :=
  ⟨5, 1, .uses, 2, 1, 0, 0, 1, 0, 0⟩

theorem twoEntities_projected : twoEntities.Projected :=
  fun _ => ⟨fun h => absurd h Table.not_mem_empty, fun ⟨_, h, _⟩ => absurd h Table.not_mem_empty⟩

theorem twoEntities_numbered : twoEntities.Numbered :=
  fun _ h => absurd h Table.not_mem_empty

def comesBack (order : List Nat) : List Action :=
  [.upsert uses, .delete 5, .upsert uses] ++ order.map (.handle · fun _ => false)

theorem uses_numbered :
    uses.id < 2 ^ 128 ∧ uses.sourceObjectId < 2 ^ 128 ∧ uses.targetObjectId < 2 ^ 128 := by
  decide

theorem mem_comesBack {order : List Nat} (h : .upsert rel ∈ comesBack order) :
    rel.id < 2 ^ 128 ∧ rel.sourceObjectId < 2 ^ 128 ∧ rel.targetObjectId < 2 ^ 128 := by
  have h : rel = uses := by simpa [comesBack] using h
  exact h ▸ uses_numbered

-- While it is stored, each call for an insertion of the relationship sets its edge.
theorem mends_uses {handled : Bool} (hr : s.store.getRelationship 5 = some uses)
    (hb : s.store.BetweenEntities uses)
    (he : s.events[k]? = some ⟨relationshipChanged uses .upserted, handled⟩) :
    s.Harmless (.handle k faults) := by
  intro id kind ha
  obtain ⟨rfl, rfl⟩ := (announces_iff he uses_numbered).mp ha
  exact .inl <| .inl ⟨uses, hr, hb⟩

-- The deletion is handled first.
theorem run_projected_comesBack : (twoEntities.run (comesBack [1, 0, 2])).Projected := by
  apply run_projected twoEntities (comesBack [1, 0, 2]) twoEntities_projected twoEntities_numbered
    (fun _ => mem_comesBack)
  case hh => decide +kernel
  case hl =>
    refine ⟨trivial, trivial, trivial, ?_, mends_uses rfl (by decide) rfl,
      mends_uses rfl (by decide) rfl, trivial⟩
    intro id kind ha
    obtain ⟨rfl, rfl⟩ := (announces_iff rfl uses_numbered).mp ha
    exact .inr ⟨0, by decide, ⟨_, rfl, rfl⟩, .inl <| (announces_iff rfl uses_numbered).mpr ⟨rfl, rfl⟩⟩

-- A relationship which is deleted and comes back loses its edge if the deletion is handled last.
theorem not_run_projected : ¬∀ (s : ProjectionSystem) (l : List Action), s.Projected → s.Numbered →
    (∀ rel, .upsert rel ∈ l →
      rel.id < 2 ^ 128 ∧ rel.sourceObjectId < 2 ^ 128 ∧ rel.targetObjectId < 2 ^ 128) →
    (∀ e ∈ (s.run l).events, e.handled) → (s.run l).Projected := by
  intro h
  have h := h twoEntities (comesBack [0, 2, 1]) twoEntities_projected twoEntities_numbered
    (fun _ => mem_comesBack) (by decide +kernel)
  have he : (twoEntities.run (comesBack [0, 2, 1])).graph.edges.rows = [] := by decide +kernel
  have hr : uses ∈ (twoEntities.run (comesBack [0, 2, 1])).store.relationships.rows := by
    decide +kernel
  have hb : (twoEntities.run (comesBack [0, 2, 1])).store.BetweenEntities uses := by decide +kernel
  have he' := (h (graphEdge uses)).mpr ⟨uses, hr, hb, rfl⟩
  rw [Table.mem_def, he] at he'
  cases he'

end ProjectionSystem
