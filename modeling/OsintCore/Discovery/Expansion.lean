import OsintCore.Discovery.Store
import OsintCore.Objects.Unicode
import OsintCore.Projection.Traversal
import OsintCore.Resources.Basic

namespace Discovery

open Resources

structure CollectionBudget where
  collectionId        : CollectionId
  maxCandidatesPerRun : Int32
  maxDepth            : Int32
  dailyRequestBudget  : Int

def conservativeDefault (collectionId : CollectionId) : CollectionBudget where
  collectionId        := collectionId
  maxCandidatesPerRun := 200
  maxDepth            := 3
  dailyRequestBudget  := 5000

-- `as usize`
def CollectionBudget.cap (budget : CollectionBudget) : Nat :=
  budget.maxCandidatesPerRun.toInt64.toUInt64.toNat

def discoveryMethodGraphExpansion : String := "graph_expansion"
def discoveryMethodSourceExpansion : String := "source_expansion"
def graphExpansionScore : Confidence := 0.4
def sourceExpansionScore : Confidence := 0.4

def graphExpansionEntityTypes : List String :=
  ["vulnerability", "repository", "software", "product"]

def sourceExpansionQueryLimit : Nat := 100

-- What a run gets from elsewhere: the stores which it only reads, the clock, and fresh ids.
structure Surroundings where
  getEntity     : EntityId → Except String (Option Entity)
  getBudget     : CollectionId → Except String (Option CollectionBudget)
  neighbors     : EntityId → GraphTraversalOptions → Except String (List GraphNode)
  sourcesOf     : EntityId → (limit : Nat) → Except String (List SourceId)
  getSource     : SourceId → Except String (Option Resources.Source)
  today         : Day
  expandedAt    : Timestamp
  sourcesReadAt : Timestamp
  newId         : Nat → Uuid

variable (u : Unicode) (w : Surroundings)

-- The ids of the `n`-th candidate of a run and of its evidence
def candidateOf (n : Nat) (candidateType : CandidateType) (name method : String)
    (collectionId : Option CollectionId) (discoveredBy : EntityId) (score : Confidence)
    (depth : Int32) (now : Timestamp) : Candidate where
  id              := w.newId (2 * n)
  candidateType   := candidateType
  value           := name
  normalizedValue := u.toLowercase (Text.trim name)
  collectionId    := collectionId
  discoveredBy    := "entity:" ++ discoveredBy.toText
  discoveryMethod := method
  confidence      := score
  score           := score
  status          := .pending
  depth           := depth
  createdAt       := now
  reviewedAt      := none

def evidenceOf (n : Nat) (entityId : EntityId) (reason : String) (weight : Confidence)
    (now : Timestamp) : CandidateEvidence where
  id             := w.newId (2 * n + 1)
  candidateId    := w.newId (2 * n)
  objectId       := none
  entityId       := some entityId
  relationshipId := none
  rawEvidenceId  := none
  reason         := reason
  weight         := weight
  createdAt      := now

abbrev Pair := Candidate × CandidateEvidence

def neighborPair (source : Entity) (collectionId : Option CollectionId) (depth : Int32) (n : Nat)
    (node : GraphNode) : Pair :=
  (candidateOf u w n .entity node.displayName discoveryMethodGraphExpansion collectionId source.id
      graphExpansionScore depth w.expandedAt,
    evidenceOf w n node.entityId ("Entity " ++ quoted source.name ++ "（" ++ source.id.toText ++
      "）的 1-hop graph neighbor，透過 graph_expansion 發現") graphExpansionScore w.expandedAt)

def graphExpansion (source : Entity) (collectionId : Option CollectionId) (depth maxDepth : Int32)
    (entityTypes : Option (List String)) : Except String (List Pair) := do
  let nextDepth := depth + 1
  if maxDepth < nextDepth then return []
  let neighbors ← w.neighbors source.id { maxHops := 1, entityTypes := entityTypes }
  return (neighbors.filter (·.entityId ≠ source.id)).mapIdx
    (neighborPair u w source collectionId nextDepth)

def sourcePair (entity : Entity) (collectionId : CollectionId) (depth : Int32) (n : Nat)
    (source : Resources.Source) : Pair :=
  (candidateOf u w n .source source.name discoveryMethodSourceExpansion (some collectionId)
      entity.id sourceExpansionScore depth w.sourcesReadAt,
    evidenceOf w n entity.id ("Entity " ++ quoted entity.name ++ " 透過 raw evidence 關聯到 Source " ++
      quoted source.name ++ "，經 entity_extractions → provenance → raw_evidence 三跳查詢發現")
      sourceExpansionScore w.sourcesReadAt)

structure Parameters where
  entityId     : EntityId
  collectionId : CollectionId
  depth        : Int32

def Parameters.decode (parameters : Option Json) : Except String Parameters := do
  let some params := parameters | throw "discovery_run job 缺少 parameters"
  let uuid (name : String) : Option Uuid := params.get name >>= (·.asStr) >>= Uuid.parseStr
  let some entityId := uuid "entity_id" | throw "parameters.entity_id 缺少或不是合法 UUID"
  let some collectionId := uuid "collection_id" |
    throw <| "parameters.collection_id 缺少或不是合法 UUID——Discovery Budget 是 " ++
      "per-collection 的，沒有 collection 就無法判斷配額"
  -- `as_i64` knows the integers of 64 bits, and `as i32` keeps their lower half.
  let depth := match params.get "depth" with
    | some (.number n) => if -2 ^ 63 ≤ n ∧ n < 2 ^ 63 then n else 0
    | _                => 0
  return ⟨entityId, collectionId, .ofInt depth⟩

-- How many candidates have been dealt with, and how many of them are new
structure Counts where
  written : Nat := 0
  created : Nat := 0

abbrev Run := Resumption Store String

def writePair (counts : Counts) (pair : Pair) : Run Counts := do
  let outcome ← .transact (·.writeCandidateWithOutbox pair.fst pair.snd)
  return ⟨counts.written + 1, counts.created + if outcome.created then 1 else 0⟩

-- The loops end where the cap has been reached.
def writePairs (cap : Nat) (counts : Counts) : List Pair → Run Counts
  | []            => return counts
  | pair :: pairs =>
    if cap ≤ counts.written then return counts
    else do writePairs cap (← writePair counts pair) pairs

def writeSources (entity : Entity) (collectionId : CollectionId) (depth : Int32) (cap : Nat)
    (n : Nat) (counts : Counts) : List SourceId → Run Counts
  | []                    => return counts
  | sourceId :: sourceIds =>
    if cap ≤ counts.written then return counts
    else do
      match ← .ofExcept (w.getSource sourceId) with
      | none        => writeSources entity collectionId depth cap n counts sourceIds
      | some source =>
        let counts ← writePair counts (sourcePair u w entity collectionId depth n source)
        writeSources entity collectionId depth cap (n + 1) counts sourceIds

structure Summary where
  neighbors   : Nat
  sourceFound : Nat
  counts      : Counts

def Summary.text (summary : Summary) (entityId : EntityId) : String :=
  "graph_expansion 完成：Entity " ++ quoted entityId.toText ++ " 找到 " ++
    toString summary.neighbors ++ " 個鄰居、" ++ toString summary.sourceFound ++
    " 個關聯 Source，寫入 " ++ toString summary.counts.written ++ " 筆 Candidate（新增 " ++
    toString summary.counts.created ++ " 筆、沿用既有 " ++
    toString (summary.counts.written - summary.counts.created) ++ " 筆）"

def tooDeep (depth maxDepth : Int32) : String :=
  "depth " ++ toString depth ++ " 已達 max_depth " ++ toString maxDepth ++
    "，不得擴張（Acceptance D）"

def exhausted (collectionId : CollectionId) (used budget : Int) : String :=
  "collection " ++ quoted collectionId.toText ++ " 今日 daily_request_budget 已用完（" ++
    toString used ++ "/" ++ toString budget ++ "）"

-- `try_consume_daily_request_budget` with one request
def consumeRequest (collectionId : CollectionId) (budget : Int) (s : Store) :
    Except String (DailyConsume × Store) :=
  match tryConsumeDailyUsage s.requests collectionId w.today 1 budget none with
  | (.ok consumption, requests) => .ok (consumption, { s with requests := requests })
  | (.error _, _)               => .error ""

-- The rest of a run which the budget allows
def expandWithin (budget : CollectionBudget) (params : Parameters) (entity : Entity) :
    Run Summary := do
  let pairs ← .ofExcept <| graphExpansion u w entity (some params.collectionId) params.depth
    budget.maxDepth (some graphExpansionEntityTypes)
  let counts ← writePairs budget.cap {} pairs
  if budget.cap ≤ counts.written then
    return ⟨pairs.length, 0, counts⟩
  let sourceIds ← .ofExcept <| w.sourcesOf params.entityId sourceExpansionQueryLimit
  let counts ← writeSources u w entity params.collectionId (params.depth + 1) budget.cap
    pairs.length counts sourceIds
  return ⟨pairs.length, sourceIds.length, counts⟩

def budgetOf (collectionId : CollectionId) (budget : Option CollectionBudget) : CollectionBudget :=
  budget.getD (conservativeDefault collectionId)

def expand (params : Parameters) : Run Summary := do
  let some entity ← .ofExcept <| w.getEntity params.entityId |
    .fail <| "Entity " ++ quoted params.entityId.toText ++ " 不存在"
  let budget := budgetOf params.collectionId (← .ofExcept <| w.getBudget params.collectionId)
  if budget.maxDepth < params.depth + 1 then
    .fail <| tooDeep params.depth budget.maxDepth
  else
    let consumption ← .transact (consumeRequest w params.collectionId budget.dailyRequestBudget)
    if consumption.allowed then
      expandWithin u w budget params entity
    else
      .fail <| exhausted params.collectionId consumption.usedAfter budget.dailyRequestBudget

def runGraphExpansion (parameters : Option Json) : Run String := do
  let params ← .ofExcept <| Parameters.decode parameters
  let summary ← expand u w params
  return summary.text params.entityId

end Discovery
