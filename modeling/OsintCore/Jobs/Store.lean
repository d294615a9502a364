import OsintCore.Jobs.Job

-- The tables of jobs and connectors, and what has been published on `job.dispatched`.
structure JobStore where
  jobs       : Table Job       := ∅
  connectors : Table Connector := ∅
  dispatched : List Json       := []

def reclaimOrphanCollectJobError : String := "collector 非正常結束（啟動回收）"

structure JobPurgeFilter where
  jobType   : String
  statuses  : List JobStatus
  olderThan : Timestamp
  limit     : UInt32

-- `StorageError::ConstraintViolation`
structure PurgeError where
  message : String
  deriving DecidableEq, Repr

namespace JobPurgeFilter

variable (filter : JobPurgeFilter)

def emptyJobType : PurgeError where
  message := "purge 的 job_type 不可為空。請指定種類（例如 collect），" ++
    "或省略 body 改套用 [retention.jobs] 的規則"

def emptyStatuses : PurgeError where
  message := "purge 的 statuses 不可為空。只允許終態 completed／failed／cancelled；" ++
    "請指定至少一個，或省略 body 改套用 [retention.jobs] 的規則"

def notEligible (status : JobStatus) : PurgeError where
  message := "purge 不可刪 `" ++ status.asStr ++
    "` 狀態的 job（queued／running／retrying 仍在進行中）。" ++ "只允許 completed／failed／cancelled"

def limitTooSmall (limit : UInt32) : PurgeError where
  message := "purge 的 limit 必須 ≥ 1（目前是 " ++ toString limit ++
    "）。單次只刪一批，迴圈由呼叫端負責"

def limitTooLarge (limit : UInt32) : PurgeError where
  message := "purge 的 limit 不可超過 100000（目前是 " ++ toString limit ++
    "）。請改小批次、多跑幾輪"

def validateScope : Except PurgeError Unit := do
  if (Text.trim filter.jobType).isEmpty then
    throw emptyJobType
  if filter.statuses.isEmpty then
    throw emptyStatuses
  filter.statuses.forM fun status =>
    if status.isPurgeEligible then .ok () else .error (notEligible status)

def validate : Except PurgeError Unit := do
  filter.validateScope
  if filter.limit < 1 then
    throw (limitTooSmall filter.limit)
  if 100000 < filter.limit then
    throw (limitTooLarge filter.limit)

-- The `WHERE` clause of `purge_jobs` and `count_purgeable_jobs`
def selects (job : Job) : Bool :=
  job.jobType = filter.jobType && filter.statuses.contains job.status &&
    job.completedAt.any (· < SqliteStore.stored filter.olderThan)

end JobPurgeFilter

namespace JobStore

variable (s : JobStore)

-- `rfc3339` keeps the milliseconds of a time only.
def rowOf (job : Job) : Job :=
  { job with
    createdAt   := SqliteStore.stored job.createdAt
    startedAt   := job.startedAt.map SqliteStore.stored
    completedAt := job.completedAt.map SqliteStore.stored }

def putJob (job : Job) : JobStore :=
  { s with jobs := s.jobs.put (rowOf job) }

def getJob (id : JobId) : Option Job :=
  s.jobs.get? id

-- The rows `purge_jobs` chooses: those which have been completed first.
def purged (filter : JobPurgeFilter) : List Job :=
  let before (a b : Job) := decide (a.completedAt.getD 0 ≤ b.completedAt.getD 0)
  (s.jobs.rows.filter filter.selects).mergeSort before |>.take filter.limit.toNat

def purgeJobs (filter : JobPurgeFilter) : Except PurgeError (Nat × JobStore) := do
  filter.validate
  let rows := s.purged filter
  return (rows.length, { s with jobs := s.jobs.filter fun job => rows.all (·.id ≠ job.id) })

def isOrphan (job : Job) : Bool :=
  job.jobType = "collect" && job.status = .running

-- The first `UPDATE` of `reclaim_orphan_collect_runs` on a row it covers
def reclaimed (now : Timestamp) (job : Job) : Job :=
  { job with
    status      := .failed
    completedAt := some (SqliteStore.stored now)
    error       := some reclaimOrphanCollectJobError }

def reclaimOrphanCollectRuns (now : Timestamp) : (Nat × Nat) × JobStore :=
  let orphans := s.jobs.rows.filter isOrphan
  let running := s.connectors.rows.filter (·.status = "running")
  ((orphans.length, running.length),
    { s with
      jobs       := orphans.foldl (fun t job => t.put (reclaimed now job)) s.jobs
      connectors := running.foldl (fun t c => t.put { c with status := "idle" }) s.connectors })

end JobStore
