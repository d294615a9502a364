import OsintCore.Control.RelyGuarantee
import OsintCore.Jobs.Service

-- What a worker acts on: the store of jobs and, of type `ω`, everything its work changes. How often
-- a job has been stored as running and how often its work has been begun is counted along.
structure WorkerState (ω : Type) where
  store   : JobStore
  world   : ω
  entered : JobId → Nat := fun _ => 0
  started : JobId → Nat := fun _ => 0

namespace JobStore

def isRunning (s : JobStore) (id : JobId) : Bool :=
  (s.getJob id).any (·.status = .running)

end JobStore

namespace WorkerState

variable {ω : Type}

def setStore (store : JobStore) (s : WorkerState ω) : WorkerState ω :=
  { s with
    store   := store
    entered := fun id =>
      if store.isRunning id ∧ ¬s.store.isRunning id then s.entered id + 1 else s.entered id }

def setWorld (world : ω) (s : WorkerState ω) : WorkerState ω :=
  { s with world }

def start (id : JobId) (s : WorkerState ω) : WorkerState ω :=
  { s with started := Function.update s.started id (s.started id + 1) }

end WorkerState

inductive JobDispatchOutcome
  | ignored (jobType : String)
  | completed (jobId : JobId)
  | failed (jobId : JobId)
  | transitionFailed (jobId : Option JobId)

-- The work itself is a parameter. It reads its job, but does not write it; a failure is known by
-- its text. An export returns the key under which it has stored the bundle.
structure JobWork (ω : Type) where
  rebuild : (pageSize : Nat) → Resumption ω String Unit
  importBundle : Job → Resumption ω String Unit
  exportBundle : Job → Resumption ω String String

-- What the clock shows when a delivery sets its job running, and when it ends it.
structure Readings where
  running : Timestamp
  ended   : Timestamp
  deriving DecidableEq

section Deliveries

variable {ω ε α : Type}

abbrev Delivery (ω : Type) := Resumption (WorkerState ω) Empty

def onJobs (x : Resumption JobStore JobError α) :
    Resumption (WorkerState ω) ε (Except JobError α) :=
  (x.zoom WorkerState.store WorkerState.setStore).outcome

def onWorld (x : Resumption ω String α) : Resumption (WorkerState ω) ε (Except String α) :=
  (x.zoom WorkerState.world WorkerState.setWorld).outcome

def jobIdOf (payload : Json) : Option JobId :=
  payload.get "job_id" >>= Json.asStr >>= Uuid.parseStr

def jobTypeOf (payload : Json) : String :=
  (payload.get "job_type" >>= Json.asStr).getD ""

def begun (id : JobId) : Resumption (WorkerState ω) ε Unit :=
  .step (·.start id) fun _ => .done ()

def conclude (id : JobId) (now : Timestamp) (target : JobStatus) (error : Option String)
    (outcome : JobDispatchOutcome) : Delivery ω JobDispatchOutcome := do
  match ← onJobs (JobService.transition id now target error) with
  | .ok _    => return outcome
  | .error _ => return .transitionFailed (some id)

-- The job is set running and its work is done; `finish` goes on with what the work has returned.
def runJob (id : JobId) (t : Readings) (work : Delivery ω (Except String α))
    (finish : α → Delivery ω JobDispatchOutcome) : Delivery ω JobDispatchOutcome := do
  match ← onJobs (JobService.transition id t.running .running none) with
  | .error _ => return .transitionFailed (some id)
  | .ok _    =>
    begun id
    match ← work with
    | .ok report => finish report
    | .error err => conclude id t.ended .failed (some err) (.failed id)

namespace GraphWorker

def jobType : String := "graph_rebuild"

def processDispatchedJob (work : JobWork ω) (t : Readings) (payload : Json) (pageSize : Nat) :
    Delivery ω JobDispatchOutcome :=
  if jobTypeOf payload ≠ jobType then
    return .ignored (jobTypeOf payload)
  else
    match jobIdOf payload with
    | none    => return .transitionFailed none
    | some id => runJob id t (onWorld (work.rebuild (max pageSize 1))) fun () =>
      conclude id t.ended .completed none (.completed id)

end GraphWorker

namespace StixWorker

def jobTypeImport : String := "stix_import"
def jobTypeExport : String := "stix_export"

-- `StorageError::Unknown` of the backend `jobs`
def unreadable (jobType : String) (id : JobId) (err : JobError) : String :=
  "儲存後端 `jobs` 發生未分類錯誤：讀取 " ++ jobType ++ " Job `" ++ id.toText ++ "` 失敗：" ++ err.toText

def runImport (work : JobWork ω) (id : JobId) :
    Delivery ω (Except String Unit) := do
  match ← onJobs (JobService.get id) with
  | .error err => return .error (unreadable jobTypeImport id err)
  | .ok job    => onWorld (work.importBundle job)

def runExport (work : JobWork ω) (id : JobId) :
    Delivery ω (Except String String) := do
  match ← onJobs (JobService.get id) with
  | .error err => return .error (unreadable jobTypeExport id err)
  | .ok job    => onWorld (work.exportBundle job)

def processExport (work : JobWork ω) (t : Readings) (payload : Json) :
    Delivery ω JobDispatchOutcome :=
  match jobIdOf payload with
  | none    => return .transitionFailed none
  | some id => runJob id t (runExport work id) fun resultObjectKey => do
    match ← onJobs (JobService.mergeParameters id
      [("result_object_key", .string resultObjectKey)]) with
    | .error err => conclude id t.ended .failed (some err.toText) (.failed id)
    | .ok _      => conclude id t.ended .completed none (.completed id)

def processDispatchedJob (work : JobWork ω) (t : Readings) (payload : Json) :
    Delivery ω JobDispatchOutcome :=
  if jobTypeOf payload = jobTypeImport then
    match jobIdOf payload with
    | none    => return .transitionFailed none
    | some id => runJob id t (runImport work id) fun () =>
      conclude id t.ended .completed none (.completed id)
  else if jobTypeOf payload = jobTypeExport then
    processExport work t payload
  else
    return .ignored (jobTypeOf payload)

end StixWorker

end Deliveries

-- The jobs which a worker carries out when they are dispatched.
inductive JobKind
  | graphRebuild | stixImport | stixExport
  deriving DecidableEq, Repr

def JobKind.jobType : JobKind → String
  | graphRebuild => GraphWorker.jobType
  | stixImport   => StixWorker.jobTypeImport
  | stixExport   => StixWorker.jobTypeExport

-- The message is delivered to the worker which carries out jobs of this kind.
def JobKind.process {ω : Type} (kind : JobKind) (work : JobWork ω) (pageSize : Nat) (t : Readings)
    (payload : Json) : Delivery ω JobDispatchOutcome :=
  match kind with
  | graphRebuild => GraphWorker.processDispatchedJob work t payload pageSize
  | stixImport   => StixWorker.processDispatchedJob work t payload
  | stixExport   => StixWorker.processDispatchedJob work t payload

-- Between the broker and the worker: the state, and the delivery which has been made last, if it
-- has not been cut off.
structure Deliveries (ω : Type) where
  state   : WorkerState ω
  current : Option (Delivery ω JobDispatchOutcome) := none

inductive DeliveryEvent
  | deliver (t : Readings)
  | advance
  | crash
  deriving DecidableEq

namespace Deliveries

variable {ω : Type} (process : Readings → Delivery ω JobDispatchOutcome)

def isOver : Option (Delivery ω JobDispatchOutcome) → Bool
  | some (.step _ _) => false
  | _                => true

-- Deliveries do not overlap. One which is cut off keeps what it has written.
def step (c : Deliveries ω) : DeliveryEvent → Deliveries ω
  | .deliver t => if isOver c.current then { c with current := some (process t) } else c
  | .advance   =>
    match c.current with
    | none   => c
    | some x => ⟨(x.advance c.state).fst, some (x.advance c.state).snd⟩
  | .crash     => { c with current := none }

def run (c : Deliveries ω) (events : List DeliveryEvent) : Deliveries ω :=
  events.foldl (step process) c

end Deliveries
