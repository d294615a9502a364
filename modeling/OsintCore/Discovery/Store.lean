import OsintCore.AiGateway.Quota
import OsintCore.Control.Transaction
import OsintCore.Resources.Candidates
import OsintCore.Table.Constraints

abbrev CandidateEvidenceId := Uuid

structure CandidateEvidence where
  id             : CandidateEvidenceId
  candidateId    : CandidateId
  objectId       : Option ObjectId
  entityId       : Option EntityId
  relationshipId : Option RelationshipId
  rawEvidenceId  : Option RawEvidenceId
  reason         : String
  weight         : Confidence
  createdAt      : Timestamp

instance : Keyed Candidate Uuid := ⟨Candidate.id⟩
instance : Keyed CandidateEvidence Uuid := ⟨CandidateEvidence.id⟩

@[simp]
theorem Candidate.key_eq (c : Candidate) : Keyed.key c = c.id :=
  rfl

@[simp]
theorem CandidateEvidence.key_eq (e : CandidateEvidence) : Keyed.key e = e.id :=
  rfl

namespace Discovery

open Resources

-- The index `uq_candidates_natural_key`.
def naturalKey (c : Candidate) : Option (CollectionId × CandidateType × String) :=
  c.collectionId.map fun collectionId => (collectionId, c.candidateType, c.normalizedValue)

-- What makes two pieces of evidence of one candidate the same.
def finding (e : CandidateEvidence) : Option ObjectId × Option EntityId × Option RelationshipId ×
    Option RawEvidenceId × String :=
  (e.objectId, e.entityId, e.relationshipId, e.rawEvidenceId, e.reason)

-- `candidates`, `candidate_evidence`, the requests in `discovery_daily_usage`, and the events about
-- candidates in the outbox.
structure Store where
  candidates : Table Candidate         := ∅
  evidence   : Table CandidateEvidence := ∅
  requests   : DailyUsage              := fun _ _ => none
  outbox     : List CandidateEvent     := []

structure CandidateDiscoveryOutcome where
  candidateId   : CandidateId
  created       : Bool
  evidenceAdded : Bool

def conflict (id : CandidateId) : String :=
  "candidate " ++ quoted id.toText ++ " 寫入被略過，但用自然鍵讀不到既有列——" ++
    "代表撞到的是主鍵（同一個 id、不同自然鍵）。請確認呼叫端每次用新的 id"

namespace Store

variable (s : Store)

def putCandidate (c : Candidate) : Store :=
  { s with candidates := s.candidates.put c }

def putCandidateEvidence (e : CandidateEvidence) : Store :=
  { s with evidence := s.evidence.put e }

def enqueueOutbox (event : CandidateEvent) : Store :=
  { s with outbox := s.outbox ++ [event] }

-- The candidate which has the natural key of `c` already.
def sibling (c : Candidate) : Option Candidate :=
  s.candidates.rows.find? fun row => naturalKey row = naturalKey c

def insertCandidate (c : Candidate) : Except String (CandidateId × Bool × Store) :=
  if c.collectionId.isNone then .ok (c.id, true, s.putCandidate c)
  -- ON CONFLICT DO NOTHING
  else if (s.candidates.get? c.id).isNone ∧ (s.sibling c).isNone then
    .ok (c.id, true, s.putCandidate c)
  else
    match s.sibling c with
    | some row => .ok (row.id, false, s)
    | none     => .error (conflict c.id)

def hasEvidence (candidateId : CandidateId) (e : CandidateEvidence) : Bool :=
  s.evidence.rows.any fun row => row.candidateId = candidateId ∧ finding row = finding e

def recordCandidateDiscovery (c : Candidate) (e : CandidateEvidence) :
    Except String (CandidateDiscoveryOutcome × Store) := do
  let (candidateId, created, s) ← s.insertCandidate c
  let found := s.hasEvidence candidateId e
  let s := if found then s else s.putCandidateEvidence { e with candidateId := candidateId }
  return (⟨candidateId, created, !found⟩, s)

def createdEvent (c : Candidate) (candidateId : CandidateId) : CandidateEvent :=
  let payload := { CandidateLifecycle.fromCandidate c with candidateId := candidateId }
  { topic         := "candidate.created"
    partitionKey  := payload.partitionKey
    correlationId := some candidateId
    payload       := payload
    sourceService := "discovery-worker" }

-- One transaction: either all of it is written, or nothing.
def writeCandidateWithOutbox (c : Candidate) (e : CandidateEvidence) :
    Except String (CandidateDiscoveryOutcome × Store) := do
  let (outcome, s) ← s.recordCandidateDiscovery c e
  let event := createdEvent c outcome.candidateId
  return (outcome, if outcome.created then s.enqueueOutbox event else s)

def updateCandidateStatus (id : CandidateId) (status : CandidateStatus) (reviewedAt : Timestamp) :
    Bool × Store :=
  match s.candidates.get? id with
  | none   => (false, s)
  | some c =>
    if c.status = status then (false, s)
    else (true, s.putCandidate { c with status := status, reviewedAt := some reviewedAt })

def getCandidate (id : CandidateId) : Except Resources.ApiError Candidate :=
  match s.candidates.get? id with
  | some c => .ok c
  | none   => .error (candidateNotFound id)

-- The transaction of `set_candidate_status`
def review (id : CandidateId) (status : CandidateStatus) (topic : String) (now : Timestamp) :
    Except Resources.ApiError (Candidate × Store) := do
  let current ← s.getCandidate id
  if current.status = status then return (current, s)
  match s.updateCandidateStatus id status now with
  | (false, s) => return (← s.getCandidate id, s)
  | (true, s)  =>
    match s.candidates.get? id with
    | some c => return (c, s.enqueueOutbox (candidateEvent topic c))
    | none   =>
      throw <| internal <| "update_candidate_status 回 true 但緊接著讀不到這筆 candidate，" ++
        "這是不該發生的併發狀態"

end Store

-- `POST /candidates/{id}/approve` and `reject`

def ofRequest {α : Type} (x : Request α) : Resumption Store (Panic ⊕ Resources.ApiError) α :=
  match x.run with
  | .error panic      => .fail (.inl panic)
  | .ok (.error e)    => .fail (.inr e)
  | .ok (.ok a)       => .done a

def setCandidateStatus (lib : UrlLib) (id : CandidateId) (status : CandidateStatus)
    (validate : Bool) (now : Timestamp) :
    Resumption Store (Panic ⊕ Resources.ApiError) Candidate := do
  if validate then
    let c ← .read (·.candidates.get? id)
    ofRequest <| found id c >>= validateUrl lib id
  let topic ← ofRequest (candidateTopic status)
  .transact fun s => (s.review id status topic now).mapError .inr

end Discovery
