import OsintCore.Api.Pagination
import OsintCore.Connector.RunState
import OsintCore.Objects.Text

abbrev JobId := Uuid

inductive JobStatus
  | queued | running | completed | retrying | failed | cancelled
  deriving DecidableEq, Repr

namespace JobStatus

def asStr : JobStatus → String
  | queued    => "queued"
  | running   => "running"
  | completed => "completed"
  | retrying  => "retrying"
  | failed    => "failed"
  | cancelled => "cancelled"

def debug : JobStatus → String
  | queued    => "Queued"
  | running   => "Running"
  | completed => "Completed"
  | retrying  => "Retrying"
  | failed    => "Failed"
  | cancelled => "Cancelled"

def isPurgeEligible : JobStatus → Bool
  | completed | failed | cancelled => true
  | queued | running | retrying    => false

end JobStatus

structure Job where
  id            : JobId
  jobType       : String
  status        : JobStatus
  correlationId : Option ObjectId
  createdAt     : Timestamp
  startedAt     : Option Timestamp
  completedAt   : Option Timestamp
  retryCount    : Int32
  error         : Option String
  parameters    : Option Json

instance : Keyed Job Uuid := ⟨Job.id⟩

@[simp]
theorem Job.key_eq (job : Job) : Keyed.key job = job.id :=
  rfl

-- `from` and `to` in the source are `current` and `target`.
def canTransition (current target : JobStatus) : Bool :=
  if current = target then false else
    match current, target with
    | .queued,   .running
    | .queued,   .cancelled
    | .running,  .completed
    | .running,  .failed
    | .running,  .retrying
    | .running,  .cancelled
    | .retrying, .running
    | .retrying, .failed
    | .retrying, .cancelled
    | .failed,   .retrying
    | .failed,   .cancelled => true
    | _,         _          => false

-- The store does not fail here, so that `Storage` is left out.
inductive JobError
  | event (message : String)
  | notFound (id : JobId)
  | invalidTransition (current target : JobStatus)
  | notRetryable (id : JobId) (status : JobStatus)
  | notDispatchable (id : JobId) (status : JobStatus)
  deriving DecidableEq, Repr

def JobError.toText : JobError → String
  | event message => message
  | notFound id => "找不到 job `" ++ id.toText ++ "`。請確認 id，或用 GET /api/v1/jobs 列出"
  | invalidTransition current target =>
    "job 不可從 `" ++ current.debug ++ "` 轉成 `" ++ target.debug ++
      "`。合法轉換：queued→running|cancelled、running→completed|failed|retrying|cancelled、" ++
      "retrying→running|failed|cancelled、failed→retrying。終態 completed/cancelled 不可再轉"
  | notRetryable id status =>
    "job `" ++ id.toText ++ "` 目前是 `" ++ status.debug ++
      "`，不能重試。只有 failed 的 job 可以 retry；running 的請等它結束，" ++
      "completed／cancelled 是終態（要重跑請建一個新的 job）"
  | notDispatchable id status =>
    "job `" ++ id.toText ++ "` 目前是 `" ++ status.debug ++
      "`，不能派工。只有 queued 或 retrying 可以 dispatch"

-- In a release build the retry counter wraps around.
def applyTransition (job : Job) (target : JobStatus) (error : Option String) (now : Timestamp) :
    Except JobError Job :=
  if canTransition job.status target then
    let job :=
      match target with
      | .running  => if job.startedAt.isNone then { job with startedAt := some now } else job
      | .completed | .failed | .cancelled => { job with completedAt := some now }
      | .retrying => { job with retryCount := job.retryCount + 1, completedAt := none }
      | .queued   => job
    let job :=
      if target = .failed ∨ target = .cancelled then { job with error := error }
      else if target = .completed ∨ target = .running then { job with error := none }
      else job
    .ok { job with status := target }
  else
    .error (.invalidTransition job.status target)

def Job.isDispatchable (job : Job) : Bool :=
  match job.status with
  | .queued | .retrying => true
  | _                   => false

-- What `dispatch` publishes on `job.dispatched`.
def Job.payload (job : Job) : Json :=
  .object [
    ("job_id",      .string job.id.toText),
    ("job_type",    .string job.jobType),
    ("status",      .string job.status.asStr),
    ("retry_count", .number job.retryCount.toInt),
    ("parameters",  job.parameters.getD .null)]
