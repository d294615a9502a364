import OsintCore.Projection.Traversal

namespace GraphStore

-- The edge lies between the two nodes, whichever of them it comes from.
def Connects (e : GraphEdge) (u v : EntityId) : Prop :=
  e.source = u ∧ e.target = v ∨ e.source = v ∧ e.target = u

variable (g : GraphStore) (options : GraphTraversalOptions)

-- An edge of the graph which passes the filters.
def Passes (e : GraphEdge) : Prop :=
  e ∈ g.edges ∧ edgeMatches e options

-- Nodes of the graph, with edges between each of them and the next.
def Links : List GraphNode → List GraphEdge → Prop
  | [u], []               => u ∈ g.nodes
  | u :: v :: ns, e :: es =>
    u ∈ g.nodes ∧ g.Passes options e ∧ Connects e u.entityId v.entityId ∧ Links (v :: ns) es
  | _, _                  => False

structure IsPath (start stop : EntityId) (p : GraphPath) : Prop where
  links : g.Links options p.nodes p.edges
  first : p.nodes.head?.map (·.entityId) = some start
  last  : p.nodes.getLast?.map (·.entityId) = some stop

-- The edges and nodes to which one gets from a node.
structure Step (u : EntityId) (e : GraphEdge) (v : EntityId) : Prop where
  passes   : g.Passes options e
  connects : Connects e u v
  isNode   : (g.nodes.get? v).isSome

variable {g options} {u v start stop : EntityId} {e : GraphEdge} {n : GraphNode} {p : GraphPath}
variable {ns : List GraphNode} {es : List GraphEdge} {k : Nat}
variable {next : EntityId → List (GraphEdge × EntityId)}

theorem connects_iff : Connects e u v ↔ (e.source = u ∨ e.target = u) ∧ otherEnd e u = v := by
  rw [Connects, otherEnd]
  by_cases hs : e.source = u
  case pos =>
    rw [if_pos hs]
    constructor
    case mp =>
      rintro (h | h)
      case inl => exact ⟨.inl hs, h.right⟩
      case inr => exact ⟨.inl hs, h.right.trans <| hs.symm.trans h.left⟩
    case mpr => exact fun h => .inl ⟨hs, h.right⟩
  case neg =>
    rw [if_neg hs]
    constructor
    case mp =>
      rintro (h | h)
      case inl => exact absurd h.left hs
      case inr => exact ⟨.inr h.right, h.left⟩
    case mpr => exact fun h => .inr ⟨h.right, h.left.resolve_left hs⟩

theorem mem_incident : e ∈ g.incident u ↔ e ∈ g.edges ∧ (e.source = u ∨ e.target = u) := by
  rw [incident, List.mem_filter, decide_eq_true_iff, Table.mem_def]

theorem mem_follow {inc : List GraphEdge} (hi : inc.Perm (g.incident u)) :
    (e, v) ∈ g.follow options inc u ↔ g.Step options u e v := by
  have hm (e' : GraphEdge) :
      (if edgeMatches e' options && (g.nodes.get? (otherEnd e' u)).isSome then
        some (e', otherEnd e' u) else none) = some (e, v) ↔
      (edgeMatches e' options ∧ (g.nodes.get? (otherEnd e' u)).isSome) ∧
        e' = e ∧ otherEnd e' u = v := by
    rw [Option.ite_none_right_eq_some, Bool.and_eq_true, Option.some.injEq, Prod.mk.injEq]
  simp only [follow, List.mem_filterMap, hm, hi.mem_iff, mem_incident]
  constructor
  case mp =>
    intro ⟨_, ⟨he, hu⟩, ⟨hmatch, hs⟩, rfl, hv⟩
    exact ⟨⟨he, hmatch⟩, connects_iff.mpr ⟨hu, hv⟩, hv ▸ hs⟩
  case mpr =>
    intro h
    have ⟨hu, hv⟩ := connects_iff.mp h.connects
    exact ⟨e, ⟨h.passes.left, hu⟩, ⟨h.passes.right, hv.symm ▸ h.isNode⟩, rfl, hv⟩

theorem Links.mem_nodes (h : g.Links options ns es) (hn : n ∈ ns) : n ∈ g.nodes := by
  induction ns generalizing es
  case nil => cases hn
  case cons m ns hi =>
    cases ns <;> cases es
    case nil.nil   => exact List.mem_singleton.mp hn ▸ h
    case nil.cons  => exact h.elim
    case cons.nil  => exact h.elim
    case cons.cons =>
      have ⟨hm, _, _, hr⟩ := h
      cases hn
      case head => exact hm
      case tail hn => exact hi hr hn

theorem isSome_of_mem (h : n ∈ g.nodes) : (g.nodes.get? n.entityId).isSome := by
  rw [← GraphNode.key_eq, Table.mem_iff_get?.mp h]
  rfl

section

variable (hnext : ∀ u e v, (e, v) ∈ next u ↔ g.Step options u e v)
include hnext

-- A chain of the search is a path of the graph.
theorem chain_links {steps : List (GraphEdge × EntityId)} (hn : n ∈ g.nodes)
    (h : Search.Chain next n.entityId steps v) :
    ∃ rest, steps.mapM (fun x => g.nodes.get? x.snd) = some rest ∧
      g.Links options (n :: rest) (steps.map (·.fst)) ∧
      (n :: rest).getLast?.map (·.entityId) = some v := by
  generalize hu : n.entityId = u at h
  induction h generalizing n
  case nil => exact ⟨[], rfl, hn, congrArg some hu⟩
  case cons u v x steps hm _ hi =>
    have h := (hnext u x.fst x.snd).mp hm
    have ⟨m, hm⟩ := Option.isSome_iff_exists.mp h.isNode
    have hid : m.entityId = x.snd := Table.get?_key hm
    have ⟨rest, hr, hl, hlast⟩ := hi (Table.get?_mem hm) hid
    refine ⟨m :: rest, ?_, ⟨hn, h.passes, ?_, hl⟩, ?_⟩
    case refine_1 => simp [hm, hr]
    case refine_2 => rw [hu, hid]; exact h.connects
    case refine_3 => rwa [List.getLast?_cons_cons]

-- Where a path of the graph leads, so does the search; and an edge of it is reached before.
theorem links_joins (hj : Search.Joins next start n.entityId k)
    (h : g.Links options (n :: ns) es) (hl : (n :: ns).getLast?.map (·.entityId) = some stop) :
    Search.Joins next start stop (k + es.length) ∧
      ∀ e ∈ es, ∃ u v i, Search.Joins next start u i ∧ i < k + es.length ∧
        g.Step options u e v := by
  induction ns generalizing n es k
  case nil =>
    cases es
    case nil  => exact ⟨Option.some.inj hl ▸ hj, by simp⟩
    case cons => exact h.elim
  case cons m ns hi =>
    cases es
    case nil => exact h.elim
    case cons e es =>
      have ⟨_, hp, hc, hr⟩ := h
      have hm : (g.nodes.get? m.entityId).isSome := isSome_of_mem <| hr.mem_nodes <| .head _
      have hs : g.Step options n.entityId e m.entityId := ⟨hp, hc, hm⟩
      rw [List.getLast?_cons_cons] at hl
      have ⟨hj', he⟩ := hi (hj.tail <| (hnext _ _ _).mpr hs) hr hl
      have hlen : k + 1 + es.length = k + (e :: es).length := by
        rw [List.length_cons]
        omega
      refine ⟨hlen ▸ hj', List.forall_mem_cons.mpr ⟨⟨_, _, k, hj, ?_, hs⟩, fun e hm => ?_⟩⟩
      case refine_1 => rw [List.length_cons]; omega
      case refine_2 => exact hlen ▸ he e hm

theorem IsPath.joins (h : g.IsPath options start stop p) :
    Search.Joins next start stop p.edges.length ∧ ∀ e ∈ p.edges, ∃ u v i,
      Search.Joins next start u i ∧ i < p.edges.length ∧ g.Step options u e v := by
  have ⟨hl, hf, hlast⟩ := h
  cases hp : p.nodes
  case nil =>
    rw [hp] at hf
    cases hf
  case cons n ns =>
    rw [hp] at hl hf hlast
    have hn : n.entityId = start := Option.some.inj hf
    have hj : Search.Joins next start n.entityId 0 := hn ▸ .refl
    have h := links_joins hnext hj hl hlast
    rwa [Nat.zero_add] at h

theorem isPath_of_chain {steps : List (GraphEdge × EntityId)} (hs : (g.nodes.get? start).isSome)
    (h : Search.Chain next start steps v) :
    ∃ p, g.IsPath options start v p ∧ p.edges = steps.map (·.fst) := by
  have ⟨n, hn⟩ := Option.isSome_iff_exists.mp hs
  have hid : n.entityId = start := Table.get?_key hn
  have ⟨rest, _, hl, hlast⟩ := chain_links hnext (Table.get?_mem hn) (hid ▸ h)
  exact ⟨⟨_, _⟩, ⟨hl, congrArg some hid, hlast⟩, rfl⟩

theorem isPath_of_joins (hs : (g.nodes.get? start).isSome) (h : Search.Joins next start v k) :
    ∃ p, g.IsPath options start v p ∧ p.edges.length = k := by
  have ⟨steps, hk, hc⟩ := h.chain
  have ⟨p, hp, he⟩ := isPath_of_chain hnext hs hc
  exact ⟨p, hp, by rw [he, List.length_map, hk]⟩

-- A way to one end of an edge leads over the edge to its other end.
theorem isPath_of_step (hs : (g.nodes.get? start).isSome) (h : Search.Joins next start u k)
    (he : g.Step options u e v) :
    ∃ p, g.IsPath options start v p ∧ p.edges.length = k + 1 ∧ e ∈ p.edges := by
  have ⟨steps, hk, hc⟩ := h.chain
  have ⟨p, hp, hes⟩ := isPath_of_chain hnext hs (hc.snoc (x := (e, v)) <| (hnext u e v).mpr he)
  refine ⟨p, hp, ?_, ?_⟩ <;> rw [hes, List.map_append]
  case refine_1 =>
    rw [List.length_append, List.length_map, hk, List.map_singleton, List.length_singleton]
  case refine_2 => exact List.mem_append_right _ <| List.mem_singleton_self _

end

theorem IsPath.start_isSome (h : g.IsPath options start stop p) : (g.nodes.get? start).isSome := by
  have ⟨n, hn, hid⟩ := Option.map_eq_some_iff.mp h.first
  exact hid ▸ isSome_of_mem (h.links.mem_nodes <| List.mem_of_mem_head? hn)

theorem IsPath.stop_isSome (h : g.IsPath options start stop p) : (g.nodes.get? stop).isSome := by
  have ⟨n, hn, hid⟩ := Option.map_eq_some_iff.mp h.last
  exact hid ▸ isSome_of_mem (h.links.mem_nodes <| List.mem_of_getLast? hn)

theorem isSome_get?_iff : (g.nodes.get? v).isSome ↔ v ∈ g.nodes.rows.map (·.entityId) := by
  rw [Table.isSome_get?, List.mem_map]
  rfl

-- The steps which `find_shortest_path` takes
def sortedNext (g : GraphStore) (options : GraphTraversalOptions) (cur : EntityId) :
    List (GraphEdge × EntityId) :=
  g.follow options
    ((g.incident cur).sortBy fun a b => compare a.relationshipId b.relationshipId) cur

theorem mem_sortedNext : (e, v) ∈ g.sortedNext options u ↔ g.Step options u e v :=
  mem_follow List.sortBy_perm

theorem IsPath.length_pos (hne : start ≠ stop) (h : g.IsPath options start stop p) :
    0 < p.edges.length := by
  have ⟨hj, _⟩ := h.joins fun _ _ _ => mem_sortedNext
  refine Nat.pos_of_ne_zero fun h0 => ?_
  rw [h0] at hj
  cases hj
  exact hne rfl

-- The search between two different nodes
theorem searchFrom_spec (options : GraphTraversalOptions) (stop : EntityId)
    (hs : (g.nodes.get? start).isSome) (hne : start ≠ stop) :
    match (g.searchFrom options start stop).parent stop with
    | none   => ∀ p, g.IsPath options start stop p → options.maxHops < p.edges.length
    | some _ => ∃ steps, Search.trace (g.searchFrom options start stop).parent start options.maxHops
        stop [] = some steps ∧ Search.Chain (g.sortedNext options) start steps stop ∧
      steps.length ≤ options.maxHops ∧
      ∀ q, g.IsPath options start stop q → steps.length ≤ q.edges.length := by
  have hn (u : EntityId) (x : GraphEdge × EntityId) (hx : x ∈ g.sortedNext options u) :
      x.snd ∈ g.nodes.rows.map (·.entityId) :=
    isSome_get?_iff.mp (mem_sortedNext.mp hx).isNode
  have hf : (g.nodes.rows.map (·.entityId)).length < g.turns := by
    rw [List.length_map]
    exact Nat.lt_succ_self _
  have hspec := Search.trace_loop (isSome_get?_iff.mp hs) hn hf options.maxHops stop
  have hjoins {q : GraphPath} (hq : g.IsPath options start stop q) :=
    (hq.joins fun _ _ _ => mem_sortedNext).left
  split at hspec
  case h_1 hd =>
    obtain ⟨hp, hj⟩ := hspec
    change (g.searchFrom options start stop).parent stop = none at hp
    rw [hp]
    intro q hq
    by_contra hle
    exact hj _ (by omega) (hjoins hq)
  case h_2 d hd =>
    obtain ⟨hp, hle, hmin, steps, ht, hl, hc⟩ := hspec
    cases hpar : (g.searchFrom options start stop).parent stop
    case none   => exact absurd (hp hpar).symm hne
    case some x => exact ⟨steps, ht, hc, hl ▸ hle, fun q hq => hl ▸ hmin _ (hjoins hq)⟩

theorem findShortestPath_spec (g : GraphStore) (options : GraphTraversalOptions)
    (start stop : EntityId) : match g.findShortestPath options start stop with
    | none   => ∀ p, g.IsPath options start stop p → options.maxHops < p.edges.length
    | some p => g.IsPath options start stop p ∧ p.edges.length ≤ options.maxHops ∧
      ∀ q, g.IsPath options start stop q → p.edges.length ≤ q.edges.length := by
  cases hs : g.nodes.get? start
  case none =>
    have hn : g.findShortestPath options start stop = none := by simp [findShortestPath, hs]
    rw [hn]
    intro p hp
    have := hp.start_isSome
    rw [hs] at this
    cases this
  case some first =>
    cases ht : g.nodes.get? stop
    case none =>
      have hn : g.findShortestPath options start stop = none := by
        simp [findShortestPath, hs, ht]
      rw [hn]
      intro p hp
      have := hp.stop_isSome
      rw [ht] at this
      cases this
    case some last =>
      have hid : first.entityId = start := Table.get?_key hs
      by_cases hne : start = stop
      case pos =>
        subst hne
        have hp : g.findShortestPath options start start = some ⟨[first], []⟩ := by
          simp [findShortestPath, hs]
        rw [hp]
        refine ⟨⟨Table.get?_mem hs, congrArg some hid, congrArg some hid⟩, ?_, ?_⟩
        case refine_1 => exact Nat.zero_le _
        case refine_2 => exact fun _ _ => Nat.zero_le _
      case neg =>
        by_cases h0 : options.maxHops = 0
        case pos =>
          have hn : g.findShortestPath options start stop = none := by
            simp [findShortestPath, hs, ht, hne, h0]
          rw [hn, h0]
          exact fun p hp => hp.length_pos hne
        case neg =>
          have hspec := searchFrom_spec options stop (by rw [hs]; rfl) hne
          cases hpar : (g.searchFrom options start stop).parent stop <;> rw [hpar] at hspec
          case none =>
            have hn : g.findShortestPath options start stop = none := by
              simp [findShortestPath, hs, ht, hne, h0, hpar]
            rwa [hn]
          case some x =>
            have ⟨steps, htr, hc, hle, hmin⟩ := hspec
            have ⟨rest, hr, hl, hlast⟩ := chain_links (fun _ _ _ => mem_sortedNext)
              (Table.get?_mem hs) (hid ▸ hc)
            have hp : g.findShortestPath options start stop =
                some ⟨first :: rest, steps.map (·.fst)⟩ := by
              simp [findShortestPath, hs, ht, hne, h0, hpar, htr, hr]
            rw [hp]
            refine ⟨⟨hl, congrArg some hid, hlast⟩, ?_, fun q hq => ?_⟩
            case refine_1 => rwa [List.length_map]
            case refine_2 => rw [List.length_map]; exact hmin q hq

-- A shortest path within the limit, where there is one.
theorem shortestPath_shortest (g : GraphStore) (options : GraphTraversalOptions)
    (start stop : EntityId) : match g.shortestPath options start stop with
    | .error _     => mockGraphMaxHops < options.maxHops
    | .ok none     => ∀ p, g.IsPath options start stop p → options.maxHops < p.edges.length
    | .ok (some p) => g.IsPath options start stop p ∧ p.edges.length ≤ options.maxHops ∧
      ∀ q, g.IsPath options start stop q → p.edges.length ≤ q.edges.length := by
  rw [shortestPath, checkHops]
  split_ifs
  case pos h => exact h
  case neg =>
    have h := findShortestPath_spec g options start stop
    cases hp : g.findShortestPath options start stop <;> rw [hp] at h
    case none   => exact h
    case some p => exact h

section Reachable

variable {d : Nat}

theorem mem_follow_incident (u : EntityId) (e : GraphEdge) (v : EntityId) :
    (e, v) ∈ g.follow options (g.incident u) u ↔ g.Step options u e v :=
  mem_follow <| .refl _

theorem reachableDist_eq (hs : (g.nodes.get? start).isSome) :
    g.reachableDist options start = (Search.loop (fun u => g.follow options (g.incident u) u) none
      options.maxHops g.turns (.start start)).dist := by
  rw [reachableDist, if_neg (by simpa using Option.isSome_iff_ne_none.mp hs)]
  split
  case isTrue h0 => rw [h0, Search.loop_zero]
  case isFalse   => rfl

theorem reachableDist_eq_some (hs : (g.nodes.get? start).isSome) :
    g.reachableDist options start v = some d ↔ d ≤ options.maxHops ∧
      Search.Joins (fun u => g.follow options (g.incident u) u) start v d ∧
      ∀ n, Search.Joins (fun u => g.follow options (g.incident u) u) start v n → d ≤ n := by
  have hn (u : EntityId) (x : GraphEdge × EntityId) (hx : x ∈ g.follow options (g.incident u) u) :
      x.snd ∈ g.nodes.rows.map (·.entityId) :=
    isSome_get?_iff.mp (mem_follow_incident u x.fst x.snd |>.mp hx).isNode
  have hf : (g.nodes.rows.map (·.entityId)).length < g.turns := by
    rw [List.length_map]
    exact Nat.lt_succ_self _
  rw [reachableDist_eq hs]
  exact Search.dist_loop (isSome_get?_iff.mp hs) hn hf

theorem isSome_start (h : (g.reachableDist options start v).isSome) :
    (g.nodes.get? start).isSome := by
  by_contra hs
  rw [reachableDist, if_pos (by simpa using hs)] at h
  cases h

-- A node which walks of up to so many edges lead to is found at its distance.
theorem reachableDist_of_joins (hs : (g.nodes.get? start).isSome)
    (hj : Search.Joins (fun u => g.follow options (g.incident u) u) start v k)
    (hk : k ≤ options.maxHops) : ∃ d ≤ k, g.reachableDist options start v = some d := by
  classical
  have hex : ∃ d, Search.Joins (fun u => g.follow options (g.incident u) u) start v d := ⟨k, hj⟩
  have hle := Nat.find_min' hex hj
  refine ⟨Nat.find hex, hle, (reachableDist_eq_some hs).mpr ⟨hle.trans hk, Nat.find_spec hex, ?_⟩⟩
  exact fun n hn => Nat.find_min' hex hn

theorem isSome_reachableDist : (g.reachableDist options start v).isSome ↔
    ∃ p, g.IsPath options start v p ∧ p.edges.length ≤ options.maxHops := by
  constructor
  case mp =>
    intro h
    have hs := isSome_start h
    have ⟨d, hd⟩ := Option.isSome_iff_exists.mp h
    have ⟨hle, hj, _⟩ := (reachableDist_eq_some hs).mp hd
    have ⟨p, hp, hl⟩ := isPath_of_joins mem_follow_incident hs hj
    exact ⟨p, hp, hl ▸ hle⟩
  case mpr =>
    intro ⟨p, hp, hle⟩
    have ⟨d, _, hd⟩ :=
      reachableDist_of_joins hp.start_isSome (hp.joins mem_follow_incident).left hle
    rw [hd]
    rfl

theorem closerEndWithinBudget_iff : closerEndWithinBudget e start
    (g.reachableDist options start) options.maxHops ↔ ∃ a b,
      g.reachableDist options start e.source = some a ∧
      g.reachableDist options start e.target = some b ∧ min a b < options.maxHops := by
  have zero {d : Nat} (h : g.reachableDist options start start = some d) : d = 0 := by
    have hs : (g.nodes.get? start).isSome := isSome_start (by rw [h]; rfl)
    exact Nat.le_zero.mp <| ((reachableDist_eq_some hs).mp h).right.right 0 .refl
  rw [closerEndWithinBudget]
  split_ifs with h0
  case pos => simp [h0]
  case neg =>
    cases hs : g.reachableDist options start e.source
    case none => simp
    case some a =>
      cases ht : g.reachableDist options start e.target
      case none => simp
      case some b =>
        have hx : (∃ a' b', some a = some a' ∧ some b = some b' ∧ min a' b' < options.maxHops) ↔
            min a b < options.maxHops := by simp
        rw [hx, decide_eq_true_iff]
        refine or_iff_left_of_imp fun h => ?_
        cases h
        case inl h =>
          rw [show a = 0 from zero (h ▸ hs), Nat.zero_min]
          exact Nat.pos_of_ne_zero h0
        case inr h =>
          rw [show b = 0 from zero (h ▸ ht), Nat.min_zero]
          exact Nat.pos_of_ne_zero h0

-- Both ends of an edge are near enough, and one of them nearer, if and only if a path within the
-- limit takes the edge.
theorem withinBudget_iff (hp : g.Passes options e) :
    closerEndWithinBudget e start (g.reachableDist options start) options.maxHops ↔
      ∃ stop p, g.IsPath options start stop p ∧ p.edges.length ≤ options.maxHops ∧ e ∈ p.edges := by
  have via {u v : EntityId} {a b : Nat} (hc : Connects e u v)
      (hu : g.reachableDist options start u = some a)
      (hv : g.reachableDist options start v = some b) (hlt : a < options.maxHops) : ∃ stop p,
      g.IsPath options start stop p ∧ p.edges.length ≤ options.maxHops ∧ e ∈ p.edges := by
    have hs : (g.nodes.get? start).isSome := isSome_start (by rw [hu]; rfl)
    have hv : (g.reachableDist options start v).isSome := by rw [hv]; rfl
    have ⟨q, hq, _⟩ := isSome_reachableDist.mp hv
    have ⟨_, hj, _⟩ := (reachableDist_eq_some hs).mp hu
    have ⟨p, hpath, hl, he⟩ := isPath_of_step mem_follow_incident hs hj ⟨hp, hc, hq.stop_isSome⟩
    exact ⟨v, p, hpath, by omega, he⟩
  rw [closerEndWithinBudget_iff]
  constructor
  case mp =>
    intro ⟨a, b, ha, hb, hlt⟩
    cases min_lt_iff.mp hlt
    case inl h => exact via (.inl ⟨rfl, rfl⟩) ha hb h
    case inr h => exact via (.inr ⟨rfl, rfl⟩) hb ha h
  case mpr =>
    intro ⟨stop, p, hpath, hle, he⟩
    have hs := hpath.start_isSome
    have ⟨u, v, i, hj, hi, hst⟩ := (hpath.joins mem_follow_incident).right e he
    have ⟨a, ha, hu⟩ := reachableDist_of_joins hs hj (by omega)
    have hjv := hj.tail <| (mem_follow_incident u e v).mpr hst
    have ⟨b, hb, hv⟩ := reachableDist_of_joins hs hjv (by omega)
    cases hst.connects
    case inl h => exact ⟨a, b, h.left ▸ hu, h.right ▸ hv, by omega⟩
    case inr h => exact ⟨b, a, h.left ▸ hv, h.right ▸ hu, by omega⟩

end Reachable

theorem sorted_sublist {α : Type} [Keyed α Uuid] {t : Table α} {cmp : α → α → Ordering}
    (hc : ∀ a b, cmp a b = compare (Keyed.key a) (Keyed.key b)) {l : List α}
    (hl : l.Sublist t.rows) :
    (l.sortBy cmp).Pairwise fun a b => Keyed.key a < Keyed.key b :=
  List.sortBy_strict hc <| List.pairwise_map.mpr <| (t.sorted.imp fun h => ne_of_lt h).sublist hl

-- The nodes which paths within the limit lead to, in the order of their ids.
theorem neighbors_reached (g : GraphStore) (options : GraphTraversalOptions) (start : EntityId) :
    match g.neighbors options start with
    | .error _  => mockGraphMaxHops < options.maxHops
    | .ok nodes => nodes.Pairwise (·.entityId < ·.entityId) ∧
      ∀ n, n ∈ nodes ↔ n ∈ g.nodes ∧ n.entityId ≠ start ∧
        (∀ types ∈ options.entityTypes, n.entityType ∈ types) ∧
        ∃ p, g.IsPath options start n.entityId p ∧ p.edges.length ≤ options.maxHops := by
  rw [neighbors, checkHops]
  split_ifs
  case pos h => exact h
  case neg =>
    generalize hl : ((g.neighborhood options start).filter fun n => decide (n.entityId ≠ start)) = l
    have hsub : l.Sublist g.nodes.rows := hl ▸ List.filter_sublist.trans List.filter_sublist
    have hm (n : GraphNode) : n ∈ l ↔ n ∈ g.nodes ∧ n.entityId ≠ start ∧
        ∃ p, g.IsPath options start n.entityId p ∧ p.edges.length ≤ options.maxHops := by
      rw [← hl, List.mem_filter, neighborhood, List.mem_filter, isSome_reachableDist,
        decide_eq_true_iff, Table.mem_def]
      tauto
    cases ht : options.entityTypes
    case none =>
      refine ⟨sorted_sublist (fun _ _ => rfl) hsub, fun n => ?_⟩
      rw [List.sortBy_perm.mem_iff, hm]
      simp
    case some types =>
      refine ⟨sorted_sublist (fun _ _ => rfl) (List.filter_sublist.trans hsub), fun n => ?_⟩
      rw [List.sortBy_perm.mem_iff, List.mem_filter, hm]
      simp
      tauto

-- The edges which paths within the limit take, in the order of their ids.
theorem relationships_reached (g : GraphStore) (options : GraphTraversalOptions)
    (start : EntityId) : match g.relationships options start with
    | .error _  => mockGraphMaxHops < options.maxHops
    | .ok edges => edges.Pairwise (·.relationshipId < ·.relationshipId) ∧
      ∀ e, e ∈ edges ↔ (∀ types ∈ options.entityTypes, g.otherEndTypeMatches e start types) ∧
        ∃ stop p, g.IsPath options start stop p ∧ p.edges.length ≤ options.maxHops ∧
          e ∈ p.edges := by
  rw [relationships, checkHops]
  split_ifs
  case pos h => exact h
  case neg =>
    dsimp only
    generalize hl : (g.edges.rows.filter fun e => edgeMatches e options &&
      ((g.reachableDist options start e.source).isSome &&
        (g.reachableDist options start e.target).isSome) &&
      closerEndWithinBudget e start (g.reachableDist options start) options.maxHops) = l
    have hsub : l.Sublist g.edges.rows := hl ▸ List.filter_sublist
    have hm (e : GraphEdge) : e ∈ l ↔ ∃ stop p, g.IsPath options start stop p ∧
        p.edges.length ≤ options.maxHops ∧ e ∈ p.edges := by
      rw [← hl, List.mem_filter, Bool.and_eq_true, Bool.and_eq_true, Bool.and_eq_true]
      constructor
      case mp => exact fun ⟨he, ⟨hmatch, _⟩, hc⟩ => (withinBudget_iff ⟨he, hmatch⟩).mp hc
      case mpr =>
        intro ⟨stop, p, hp, hle, he⟩
        have ⟨_, _, _, _, _, hst⟩ := (hp.joins mem_follow_incident).right e he
        have hc := (withinBudget_iff hst.passes).mpr ⟨stop, p, hp, hle, he⟩
        have ⟨a, b, hs, ht, _⟩ := closerEndWithinBudget_iff.mp hc
        exact ⟨hst.passes.left, ⟨hst.passes.right, by rw [hs]; rfl, by rw [ht]; rfl⟩, hc⟩
    cases ht : options.entityTypes
    case none =>
      refine ⟨sorted_sublist (fun _ _ => rfl) hsub, fun n => ?_⟩
      rw [List.sortBy_perm.mem_iff, hm]
      simp
    case some types =>
      refine ⟨sorted_sublist (fun _ _ => rfl) (List.filter_sublist.trans hsub), fun n => ?_⟩
      rw [List.sortBy_perm.mem_iff, List.mem_filter, hm]
      simp
      tauto

end GraphStore
