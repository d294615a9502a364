import OsintCore.Api.Pagination
import OsintCore.Control.Resumption
import OsintCore.Objects.Text
import OsintCore.Projection.GraphStore

-- Names of labels and types become a part of a query, so they have to be identifiers.

def Text.isIdentifierTail (s : List Char) : Bool :=
  s.all fun c => c.isAlphanum || c = '_'

-- `char::to_uppercase`: most characters have one upper case character, some have several.
abbrev Uppercase := Char → List Char

def snakeToPascalFrom (toUppercase : Uppercase) : Bool → List Char → List Char
  | _, []       => []
  | cap, c :: l =>
    if c = '_' ∨ c = '-' then snakeToPascalFrom toUppercase true l
    else (if cap then toUppercase c else [c]) ++ snakeToPascalFrom toUppercase false l

def snakeToPascal (toUppercase : Uppercase) (snake : String) : String :=
  .ofList <| snakeToPascalFrom toUppercase true snake.toList

def toRelType (raw : String) : String :=
  .ofList <| raw.toList.map fun c => if c = '-' then '_' else c.toUpper

def sanitizeLabel (label : String) : Except GraphStoreError String :=
  match label.toList with
  | []         => .error <| .constraintViolation
    "entity_type 轉成的 Neo4j label 是空的。請傳非空的 entity_type（例如 person）"
  | first :: l =>
    if ¬first.isAlpha then .error <| .constraintViolation <|
      "entity_type 轉成的 Neo4j label `" ++ label ++
      "` 不是合法 identifier（必須以 ASCII 字母開頭）。請改成 snake_case 英數字，例如 person／organization"
    else if ¬Text.isIdentifierTail l then .error <| .constraintViolation <|
      "entity_type 轉成的 Neo4j label `" ++ label ++
      "` 含非法字元。只允許 ASCII 字母、數字、底線，避免 Cypher injection"
    else .ok label

def sanitizeRelType (rel : String) : Except GraphStoreError String :=
  match rel.toList with
  | []         => .error <| .constraintViolation
    "relationship_type 轉成的 Cypher 型別是空的。請傳非空字串（例如 associated_with）"
  | first :: l =>
    if ¬first.isAlpha then .error <| .constraintViolation <|
      "relationship_type 轉成的 Cypher 型別 `" ++ rel ++
      "` 不是合法 identifier（必須以 ASCII 字母開頭）"
    else if ¬Text.isIdentifierTail l then .error <| .constraintViolation <|
      "relationship_type 轉成的 Cypher 型別 `" ++ rel ++
      "` 含非法字元。只允許 ASCII 字母、數字、底線"
    else .ok rel

-- The types whose relationships have a constraint on their `relationship_id`.
def knownRelationshipTypes : List String := [
  "MENTIONS", "REFERENCES", "PUBLISHED_BY", "AUTHORED_BY", "LINKS_TO", "AFFECTS", "BELONGS_TO",
  "MEMBER_OF", "OWNS", "USES", "LOCATED_AT", "ASSOCIATED_WITH", "DERIVED_FROM", "INDICATES",
  "ATTRIBUTED_TO", "TARGETS", "MITIGATES"]

-- The times are written with milliseconds. Two of the texts are equal if the milliseconds are.
def rfc3339 (ts : Timestamp) : Int :=
  ts / 1000

structure Neo4jNode where
  entityId       : EntityId
  labels         : List String
  entityType     : String
  displayName    : String
  attributesJson : Json

structure Neo4jRelation where
  source           : EntityId
  relType          : String
  target           : EntityId
  relationshipId   : RelationshipId
  relationshipType : String
  confidence       : Confidence
  firstSeen        : Int
  lastSeen         : Int
  deriving DecidableEq

instance : Keyed Neo4jNode Uuid := ⟨Neo4jNode.entityId⟩

@[simp]
theorem Neo4jNode.key_eq (n : Neo4jNode) : Keyed.key n = n.entityId :=
  rfl

-- Nothing but its end nodes, its type and the constraints keep two relations apart.
structure Neo4jStore where
  nodes     : Table Neo4jNode := ∅
  relations : List Neo4jRelation := []

namespace Neo4jStore

abbrev Querying := Resumption Neo4jStore GraphStoreError

-- `MERGE` on the node's id, `SET`, `SET n:$($label)`.
def mergeNode (n : GraphNode) (label : String) (s : Neo4jStore) : Neo4jNode where
  entityId       := n.entityId
  labels         := (s.nodes.get? n.entityId |>.elim ["Entity"] Neo4jNode.labels).insert label
  entityType     := n.entityType
  displayName    := n.displayName
  attributesJson := n.attributes

def removeLabel (id : EntityId) (old : String) (s : Neo4jStore) : Neo4jStore :=
  match s.nodes.get? id with
  | some n => { s with nodes := s.nodes.put { n with labels := n.labels.filter (· ≠ old) } }
  | none   => s

def removeExtra (id : EntityId) (label extra : String) : Querying Unit :=
  if extra ≠ "Entity" ∧ extra ≠ label then
    match sanitizeLabel extra with
    | .error e => .fail e
    | .ok _    => .step (removeLabel id extra) fun _ => .done ()
  else .done ()

def upsertNode (toUppercase : Uppercase) (n : GraphNode) : Querying Unit :=
  let label := snakeToPascal toUppercase n.entityType
  match sanitizeLabel label with
  | .error e => .fail e
  | .ok _    => do
    let labels ← .step (fun s => { s with nodes := s.nodes.put (s.mergeNode n label) })
      fun s => .done (s.mergeNode n label).labels
    labels.forM (removeExtra n.entityId label)

def edgeNotFoundMessage (e : GraphEdge) : String :=
  "upsert_edge 找不到端點節點（source=" ++ Uuid.toText e.source ++ " target=" ++
    Uuid.toText e.target ++ "）。請先 upsert_node"

def created (e : GraphEdge) (relType : String) : Neo4jRelation where
  source           := e.source
  relType          := relType
  target           := e.target
  relationshipId   := e.relationshipId
  relationshipType := e.relationshipType
  confidence       := e.confidence
  firstSeen        := rfc3339 e.firstSeen
  lastSeen         := rfc3339 e.lastSeen

-- Without a row of both ends nothing is merged. A relation which matches keeps its id and `first_seen`.
def mergeEdge (e : GraphEdge) (relType : String) (s : Neo4jStore) :
    Except GraphStoreError Neo4jStore :=
  let isMatch (r : Neo4jRelation) : Bool :=
    r.source = e.source ∧ r.relType = relType ∧ r.target = e.target
  if (s.nodes.get? e.source).isNone ∨ (s.nodes.get? e.target).isNone then
    .error <| .notFound <| edgeNotFoundMessage e
  else if s.relations.any isMatch then
    .ok { s with relations := s.relations.map fun r => if isMatch r then { r with
      confidence       := e.confidence
      lastSeen         := rfc3339 e.lastSeen
      relationshipType := e.relationshipType } else r }
  else if relType ∈ knownRelationshipTypes ∧
      ∃ r ∈ s.relations, r.relType = relType ∧ r.relationshipId = e.relationshipId then
    .error <| .constraintViolation "Neo.ClientError.Schema.ConstraintValidationFailed"
  else .ok { s with relations := created e relType :: s.relations }

def upsertEdge (e : GraphEdge) : Querying Unit :=
  if e.source = e.target then .fail <| .constraintViolation selfLoopMessage
  else
    let relType := toRelType e.relationshipType
    match sanitizeRelType relType with
    | .error error => .fail error
    | .ok _        => .write (mergeEdge e relType)

-- `DETACH DELETE`
def deleteNode (id : EntityId) : Querying Unit :=
  .step (fun s => {
    nodes     := s.nodes.erase id
    relations := s.relations.filter fun r => r.source ≠ id ∧ r.target ≠ id }) fun _ => .done ()

def deleteEdge (id : RelationshipId) : Querying Unit :=
  .step (fun s => { s with relations := s.relations.filter (·.relationshipId ≠ id) }) fun _ => .done ()

end Neo4jStore
