import OsintCore.Objects.Graph

structure GraphNode where
  entityId    : EntityId
  entityType  : String
  displayName : String
  attributes  : Json

structure GraphEdge where
  relationshipId   : RelationshipId
  source           : EntityId
  target           : EntityId
  relationshipType : String
  confidence       : Confidence
  firstSeen        : Timestamp
  lastSeen         : Timestamp
  deriving DecidableEq

instance : Keyed GraphNode Uuid := ⟨GraphNode.entityId⟩
instance : Keyed GraphEdge Uuid := ⟨GraphEdge.relationshipId⟩

@[simp]
theorem GraphNode.key_eq (n : GraphNode) : Keyed.key n = n.entityId :=
  rfl

@[simp]
theorem GraphEdge.key_eq (e : GraphEdge) : Keyed.key e = e.relationshipId :=
  rfl

-- Anything else which goes wrong in a backend is `unavailable`.
inductive GraphStoreError
  | constraintViolation (message : String)
  | notFound (message : String)
  | unavailable
  deriving DecidableEq, Repr

def selfLoopMessage : String :=
  "GraphEdge 的 source 與 target 不能是同一個節點。自環不是 Graph API 的語意，請檢查 relationship 寫入端"

-- The reference graph: nodes and edges by their ids.
structure GraphStore where
  nodes : Table GraphNode := ∅
  edges : Table GraphEdge := ∅

namespace GraphStore

variable (g : GraphStore)

def upsertNode (n : GraphNode) : Except GraphStoreError GraphStore :=
  .ok { g with nodes := g.nodes.put n }

def upsertEdge (e : GraphEdge) : Except GraphStoreError GraphStore :=
  if e.source = e.target then .error (.constraintViolation selfLoopMessage)
  else .ok { g with edges := g.edges.put e }

def deleteNode (id : EntityId) : Except GraphStoreError GraphStore :=
  .ok { g with
    nodes := g.nodes.erase id
    edges := g.edges.filter fun e => e.source ≠ id ∧ e.target ≠ id }

def deleteEdge (id : RelationshipId) : Except GraphStoreError GraphStore :=
  .ok { g with edges := g.edges.erase id }

def wipe : GraphStore where
  nodes := ∅
  edges := ∅

end GraphStore
