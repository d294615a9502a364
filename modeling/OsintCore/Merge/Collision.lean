import OsintCore.Objects.Graph

namespace Merge

-- Replaces the ends of a relationship which are `old` by `new`.
def repointedEnds (rel : Relationship) (old new : EntityId) : EntityId × EntityId :=
  (if rel.sourceObjectId = old then new else rel.sourceObjectId,
   if rel.targetObjectId = old then new else rel.targetObjectId)

-- A relationship both of whose ends are `old` becomes a self-loop, so there is no single column.
def relationshipRepointColumn (rel : Relationship) (old : EntityId) : Option String :=
  match decide (rel.sourceObjectId = old), decide (rel.targetObjectId = old) with
  | true, false => some "source_object_id"
  | false, true => some "target_object_id"
  | _, _        => none

def repointed (table : String) (rowId : Uuid) (column : String) (previousValue : Uuid) :
    RepointedReference :=
  { table, rowId, column, previousValue }

structure Collision where
  absorbed : Relationship
  absorber : Relationship

def findAbsorber (survivorRels : List Relationship) (type : RelationshipType)
    (source target : EntityId) : Option Relationship :=
  survivorRels.find? fun r =>
    r.relationshipType = type ∧ r.sourceObjectId = source ∧ r.targetObjectId = target

structure Classified where
  selfLoops     : List Relationship := []
  collisions    : List Collision    := []
  safeRepoints  : List Relationship := []

-- The body of the loop in `classifyRelationships`.
def classifyRelationship (survivorRels : List Relationship) (mergedId survivorId : EntityId)
    (c : Classified) (rel : Relationship) : Classified :=
  let ends := repointedEnds rel mergedId survivorId
  if ends.fst = ends.snd then
    { c with selfLoops := c.selfLoops ++ [rel] }
  else
    match findAbsorber survivorRels rel.relationshipType ends.fst ends.snd with
    | some absorber => { c with collisions := c.collisions ++ [{ absorbed := rel, absorber }] }
    | none          => { c with safeRepoints := c.safeRepoints ++ [rel] }

def classifyRelationships (mergedRels survivorRels : List Relationship)
    (mergedId survivorId : EntityId) : Classified :=
  mergedRels.foldl (classifyRelationship survivorRels mergedId survivorId) {}

end Merge
