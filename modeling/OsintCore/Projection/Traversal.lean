import OsintCore.Control.Graph
import OsintCore.Control.SortBy
import OsintCore.Projection.GraphStore

structure GraphTraversalOptions where
  maxHops           : Nat                            := 1
  relationshipTypes : Option (List String)           := none
  entityTypes       : Option (List String)           := none
  minConfidence     : Option Confidence              := none
  timeRange         : Option (Timestamp × Timestamp) := none

structure GraphPath where
  nodes : List GraphNode
  edges : List GraphEdge

namespace GraphStore

def mockGraphMaxHops : Nat := 32

def checkHops (maxHops : Nat) : Except GraphStoreError Unit :=
  if mockGraphMaxHops < maxHops then
    .error <| .constraintViolation <| "max_hops=" ++ toString maxHops ++ " 超過 mock 上限 " ++
      toString mockGraphMaxHops ++ "。無界遍歷會掃完整張圖，請把跳數調小"
  else
    .ok ()

-- Whether the edge is of one of the types, sure enough, and has been seen within the range.
def edgeMatches (edge : GraphEdge) (options : GraphTraversalOptions) : Bool :=
  options.relationshipTypes.all (fun types => types.any (· = edge.relationshipType)) &&
  options.minConfidence.all (fun min => ¬edge.confidence < min) &&
  options.timeRange.all fun (start, stop) => edge.firstSeen ≤ stop ∧ start ≤ edge.lastSeen

def otherEnd (edge : GraphEdge) (start : EntityId) : EntityId :=
  if edge.source = start then edge.target else edge.source

variable (g : GraphStore) (options : GraphTraversalOptions)

def incident (id : EntityId) : List GraphEdge :=
  g.edges.rows.filter fun e => e.source = id ∨ e.target = id

-- The edges which a search follows from a node, with the nodes which they lead to.
def follow (inc : List GraphEdge) (cur : EntityId) : List (GraphEdge × EntityId) :=
  inc.filterMap fun edge =>
    if edgeMatches edge options && (g.nodes.get? (otherEnd edge cur)).isSome then
      some (edge, otherEnd edge cur)
    else
      none

-- No node enters the queue twice, so that the search takes at most as many turns as there are nodes.
def turns : Nat :=
  g.nodes.rows.length + 1

-- The hops which lead from the start to a node.
def reachableDist (start : EntityId) : EntityId → Option Nat :=
  if (g.nodes.get? start).isNone then fun _ => none
  else if options.maxHops = 0 then (Search.start (E := GraphEdge) start).dist
  else
    let next cur := g.follow options (g.incident cur) cur
    (Search.loop next none options.maxHops g.turns (.start start)).dist

-- The search reaches nodes of the graph only.
def neighborhood (start : EntityId) : List GraphNode :=
  g.nodes.rows.filter fun n => (g.reachableDist options start n.entityId).isSome

def neighbors (entityId : EntityId) : Except GraphStoreError (List GraphNode) := do
  checkHops options.maxHops
  let nodes := (g.neighborhood options entityId).filter (·.entityId ≠ entityId)
  let nodes := match options.entityTypes with
    | some types => nodes.filter fun n : GraphNode => types.any (· = n.entityType)
    | none       => nodes
  return nodes.sortBy fun a b => compare a.entityId b.entityId

def closerEndWithinBudget (edge : GraphEdge) (start : EntityId) (dist : EntityId → Option Nat)
    (maxHops : Nat) : Bool :=
  if maxHops = 0 then false
  else match dist edge.source, dist edge.target with
    | some a, some b => min a b < maxHops ∨ edge.source = start ∨ edge.target = start
    | _,      _      => false

def hasType (id : EntityId) (types : List String) : Bool :=
  (g.nodes.get? id).any fun n : GraphNode => types.any (· = n.entityType)

-- Away from the start, one end of the edge has to be of the types, be it which it may.
def otherEndTypeMatches (edge : GraphEdge) (start : EntityId) (types : List String) : Bool :=
  if edge.source = start ∨ edge.target = start then g.hasType (otherEnd edge start) types
  else if g.hasType edge.source types then true
  else g.hasType edge.target types

def relationships (entityId : EntityId) : Except GraphStoreError (List GraphEdge) := do
  checkHops options.maxHops
  let dist := g.reachableDist options entityId
  let out := g.edges.rows.filter fun e => edgeMatches e options &&
    ((dist e.source).isSome && (dist e.target).isSome) &&
    closerEndWithinBudget e entityId dist options.maxHops
  let out := match options.entityTypes with
    | some types => out.filter fun e => g.otherEndTypeMatches e entityId types
    | none       => out
  return out.sortBy fun a b => compare a.relationshipId b.relationshipId

-- Edges are followed in the order of their ids.
def searchFrom (start stop : EntityId) : Search EntityId GraphEdge :=
  let inc cur  := (g.incident cur).sortBy fun a b => compare a.relationshipId b.relationshipId
  let next cur := g.follow options (inc cur) cur
  Search.loop next (some stop) options.maxHops g.turns (.start start)

def findShortestPath (start stop : EntityId) : Option GraphPath := do
  let first ← g.nodes.get? start
  let _ ← g.nodes.get? stop
  if start = stop then return ⟨[first], []⟩
  if options.maxHops = 0 then none
  let search := g.searchFrom options start stop
  let _ ← search.parent stop
  let steps ← Search.trace search.parent start options.maxHops stop []
  let rest ← steps.mapM fun (_, id) => g.nodes.get? id
  return ⟨first :: rest, steps.map (·.fst)⟩

def shortestPath (start stop : EntityId) : Except GraphStoreError (Option GraphPath) := do
  checkHops options.maxHops
  return g.findShortestPath options start stop

end GraphStore
