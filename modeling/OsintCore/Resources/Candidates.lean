import OsintCore.Resources.Basic
import OsintCore.Url.Canonical

abbrev CandidateId := Uuid

inductive CandidateType
  | entity | relationship | account | channel | source | url | domain | repository | keyword | topic
  | seed
  deriving DecidableEq, Repr

def CandidateType.asStr : CandidateType → String
  | entity       => "entity"
  | relationship => "relationship"
  | account      => "account"
  | channel      => "channel"
  | source       => "source"
  | url          => "url"
  | domain       => "domain"
  | repository   => "repository"
  | keyword      => "keyword"
  | topic        => "topic"
  | seed         => "seed"

inductive CandidateStatus
  | pending | approved | autoApproved | rejected | expired
  deriving DecidableEq, Repr

namespace CandidateStatus

def asStr : CandidateStatus → String
  | pending      => "pending"
  | approved     => "approved"
  | autoApproved => "auto_approved"
  | rejected     => "rejected"
  | expired      => "expired"

def debug : CandidateStatus → String
  | pending      => "Pending"
  | approved     => "Approved"
  | autoApproved => "AutoApproved"
  | rejected     => "Rejected"
  | expired      => "Expired"

end CandidateStatus

structure Candidate where
  id              : CandidateId
  candidateType   : CandidateType
  value           : String
  normalizedValue : String
  collectionId    : Option CollectionId
  discoveredBy    : String
  discoveryMethod : String
  confidence      : Confidence
  score           : Confidence
  status          : CandidateStatus
  depth           : Int32
  createdAt       : Timestamp
  reviewedAt      : Option Timestamp

namespace Resources

structure CandidateLifecycle where
  candidateId     : CandidateId
  collectionId    : Option CollectionId
  candidateType   : String
  value           : String
  normalizedValue : String
  status          : String
  discoveryMethod : String
  discoveredBy    : String
  confidence      : Confidence
  score           : Confidence
  depth           : Int32
  createdAt       : Timestamp
  reviewedAt      : Option Timestamp

namespace CandidateLifecycle

def fromCandidate (c : Candidate) : CandidateLifecycle where
  candidateId     := c.id
  collectionId    := c.collectionId
  candidateType   := c.candidateType.asStr
  value           := c.value
  normalizedValue := c.normalizedValue
  status          := c.status.asStr
  discoveryMethod := c.discoveryMethod
  discoveredBy    := c.discoveredBy
  confidence      := c.confidence
  score           := c.score
  depth           := c.depth
  createdAt       := c.createdAt
  reviewedAt      := c.reviewedAt

def partitionKey (e : CandidateLifecycle) : String :=
  Uuid.toText <| e.collectionId.getD e.candidateId

end CandidateLifecycle

structure CandidateEvent where
  topic         : String
  partitionKey  : String
  correlationId : Option Uuid
  payload       : CandidateLifecycle
  sourceService : String

-- What the store answers to the calls of one request, its errors being turned to the ones of the API.
-- Other requests may change the candidate in between.
structure CandidateAnswers where
  store     : Except ApiError Unit
  validated : Except ApiError (Option Candidate)
  begin     : Except ApiError Unit
  current   : Except ApiError (Option Candidate)
  updated   : Except ApiError Bool
  latest    : Except ApiError (Option Candidate)
  enqueued  : CandidateEvent → Except ApiError Unit
  committed : Except ApiError Unit

def candidateNotFound (id : CandidateId) : ApiError :=
  .notFound <| "找不到 Candidate " ++ quoted id.toText ++ "。請用 GET /api/v1/candidates 確認 id"

def internal : String → ApiError :=
  .mk 500 "internal"

def notUrl (id : CandidateId) (value : String) : ApiError :=
  .badRequest <| "Candidate " ++ quoted id.toText ++ "（candidate_type=Url）的 value " ++
    quoted value ++ " 不是合法 URL，拒絕核准。請提供能被正規化成有 host 的絕對 URL" ++
    "（例如 https://example.com/path）"

def notWebUrl (id : CandidateId) (value : String) : ApiError :=
  .badRequest <| "Candidate " ++ quoted id.toText ++ "（candidate_type=Url）的 value " ++
    quoted value ++ " 不是 http/https 網址，拒絕核准。只接受 http:// 或 https:// 開頭的網址；" ++
    "javascript:、data:、mailto:、ftp: 等其他 scheme 一律不核准。若這筆不該保留，請改用 reject"

variable (lib : UrlLib)

def approvableUrlScheme (value : String) : Bool :=
  UrlNorm.isHttpOrHttps lib value

abbrev Request := ExceptT ApiError (Except Panic)

def found (id : CandidateId) : Option Candidate → Request Candidate
  | some c => pure c
  | none   => throw (candidateNotFound id)

-- The gate which only an approval has to pass.
def validateUrl (id : CandidateId) (c : Candidate) : Request Unit := do
  if c.candidateType = .url then
    if (← UrlNorm.canonicalize lib c.value).isNone then
      throw <| notUrl id (← UrlNorm.short c.value)
    if ¬approvableUrlScheme lib c.value then
      throw <| notWebUrl id (← UrlNorm.short c.value)

def candidateTopic : CandidateStatus → Request String
  | .approved => pure "candidate.approved"
  | .rejected => pure "candidate.rejected"
  | other     => throw <| internal <| "set_candidate_status 不該收到 " ++ other.debug

def candidateEvent (topic : String) (c : Candidate) : CandidateEvent where
  topic         := topic
  partitionKey  := (CandidateLifecycle.fromCandidate c).partitionKey
  correlationId := some c.id
  payload       := .fromCandidate c
  sourceService := "core-api"

-- The part of the request which runs in a transaction.
def changeStatus (a : CandidateAnswers) (id : CandidateId) (status : CandidateStatus)
    (topic : String) : Request Candidate := do
  a.begin
  let current ← found id (← a.current)
  if current.status = status then
    a.committed
    return current
  else if ← a.updated then
    match ← a.latest with
    | none           =>
      throw <| internal <| "update_candidate_status 回 true 但緊接著讀不到這筆 candidate，" ++
        "這是不該發生的併發狀態"
    | some candidate => do
      a.enqueued (candidateEvent topic candidate)
      a.committed
      return candidate
  else
    let latest ← found id (← a.latest)
    a.committed
    return latest

def setCandidateStatus (a : CandidateAnswers) (id : CandidateId) (status : CandidateStatus)
    (validate : Bool) : Request Candidate := do
  a.store
  if validate then
    validateUrl lib id (← found id (← a.validated))
  let topic ← candidateTopic status
  changeStatus a id status topic

end Resources
