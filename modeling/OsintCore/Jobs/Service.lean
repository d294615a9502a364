import OsintCore.Control.Resumption
import OsintCore.Jobs.Store

namespace JobService

variable (id : JobId) (now : Timestamp)

def put (job : Job) : Resumption JobStore JobError Unit :=
  .step (·.putJob job) fun _ => .done ()

-- The id is a new version 7 UUID.
def create (jobType : String) (correlationId : Option ObjectId) (parameters : Option Json) :
    Resumption JobStore JobError Job := do
  let job := {
    id            := id
    jobType       := jobType
    status        := .queued
    correlationId := correlationId
    createdAt     := now
    startedAt     := none
    completedAt   := none
    retryCount    := 0
    error         := none
    parameters    := parameters }
  put job
  return job

def get : Resumption JobStore JobError Job := do
  match ← .read (·.getJob id) with
  | some job => return job
  | none     => .fail (.notFound id)

def transition (target : JobStatus) (error : Option String) : Resumption JobStore JobError Job := do
  let job ← get id
  let job ← .ofExcept (applyTransition job target error now)
  put job
  return job

-- What the broker answers, if the service has a producer.
abbrev Broker := Option (Except String Unit)

def publish (job : Job) : Broker → Resumption JobStore JobError Unit
  | none                  => return ()
  | some (.error message) => .fail (.event message)
  | some (.ok ())         =>
    .step (fun s => { s with dispatched := s.dispatched ++ [job.payload] }) fun _ => .done ()

def dispatch (broker : Broker) : Resumption JobStore JobError Job := do
  let job ← get id
  if !job.isDispatchable then
    .fail (.notDispatchable id job.status)
  else
    publish job broker
    return job

def retry (broker : Broker) : Resumption JobStore JobError Job := do
  let job ← get id
  if job.status ≠ .failed then
    .fail (.notRetryable id job.status)
  else
    let _ ← transition id now .retrying none
    dispatch id broker

-- `extend` writes the entries of the patch one by one.
def mergeParameters (patch : List (String × Json)) : Resumption JobStore JobError Job := do
  let job ← get id
  let merged := patch.foldl (fun out (name, value) => Json.insert out name value)
    ((job.parameters >>= Json.asObject).getD [])
  let job := { job with parameters := some (.object merged) }
  put job
  return job

end JobService
