import OsintCore.Control.Guards
import OsintCore.AiGateway.Pressure

inductive Priority
  | p0 | p1 | p2 | p3 | p4
  deriving DecidableEq, Repr

-- The order of the variants
def Priority.rank : Priority → Nat
  | p0 => 0
  | p1 => 1
  | p2 => 2
  | p3 => 3
  | p4 => 4

inductive AdmissionError
  | p0Busy
  | rejectedByPressure (pressure : ResourcePressure)
  deriving DecidableEq, Repr

-- The table of `admit`
def AdmissionController.blocked (pressure : ResourcePressure) (priority : Priority) : Bool :=
  match pressure with
  | .normal   => false
  | .elevated => priority = .p4
  | .high     => Priority.p2.rank ≤ priority.rank
  | .critical => Priority.p1.rank ≤ priority.rank

structure LlmProviderConfig where
  enabled            : Bool
  maxConcurrent      : Nat
  maxRetries         : Nat
  rateLimited        : Bool
  p0ReservedCapacity : Nat
  sharedCapacity     : Nat

namespace LlmProvider

-- The semaphores, and the lock of the rate limiter.
inductive Permit
  | reservedP0 | shared | request | limiter
  deriving DecidableEq, Repr

inductive Counter
  | admissionWaiters | inflight
  deriving DecidableEq, Repr

abbrev Held := Guard Permit Counter
abbrev Pool := GuardPool Permit Counter

def capacity (config : LlmProviderConfig) : Permit → Nat
  | .reservedP0 => max config.p0ReservedCapacity 1
  | .shared     => max config.sharedCapacity 1
  | .request    => max config.maxConcurrent 1
  | .limiter    => 1

inductive AttemptError
  | transient | permanent | invalidResponse
  deriving DecidableEq, Repr

inductive QuotaError
  | exceeded | unavailable
  deriving DecidableEq, Repr

-- What comes of a request: no answer in time, no connection, another failure of the transport, or an
-- answer, whose body may or may not be a completion.
inductive Reply
  | timeout
  | connect
  | transport
  | http (status : Nat) (isCompletion : Bool)

def classifyHttp (status : Nat) : AttemptError :=
  if status ∈ [429, 502, 503] then .transient else .permanent

def Reply.outcome : Reply → Except AttemptError Unit
  | timeout                  => .error .transient
  | connect                  => .error .transient
  | transport                => .error .permanent
  | http status isCompletion =>
    if ¬(200 ≤ status ∧ status < 300) then .error (classifyHttp status)
    else if isCompletion then .ok ()
    else .error .invalidResponse

inductive Ending
  | unsupported
  | rejected (e : AdmissionError)
  | refused (e : QuotaError)
  | failed (e : AttemptError)
  | completed
  | cancelled
  deriving DecidableEq

-- Where a call of `chat_completion` stands, between two accesses to what it shares with others.
inductive Phase
  | entered
  -- It is counted among the waiters: before it asks for the pressure, and while it waits for a permit.
  | counted
  | queued
  | granted
  -- Before it asks for the quota, and when it has been charged.
  | admitted
  | charged
  -- The attempts: it waits for a permit, for the lock of the rate limiter, and for its turn.
  | acquiring (attempt : Nat)
  | throttled (attempt : Nat)
  | pacing (attempt : Nat)
  | ready (attempt : Nat)
  | sent (attempt : Nat)
  | answered (attempt : Nat) (outcome : Except AttemptError Unit)
  | backingOff (attempt : Nat)
  -- The guards which are still in scope are dropped one after the other.
  | returning (scope : List Held) (ending : Ending)

def Phase.scope : Phase → List Held
  | entered           => []
  | counted           => [.counter .admissionWaiters]
  | queued            => [.counter .admissionWaiters]
  | granted           => [.counter .admissionWaiters]
  | admitted          => []
  | charged           => []
  | acquiring _       => [.counter .inflight]
  | throttled _       => [.permit .request, .counter .inflight]
  | pacing _          => [.permit .limiter, .permit .request, .counter .inflight]
  | ready _           => [.permit .request, .counter .inflight]
  | sent _            => [.permit .request, .counter .inflight]
  | answered _ _      => [.permit .request, .counter .inflight]
  | backingOff _      => [.counter .inflight]
  | returning scope _ => scope

-- What a call does to the world.
inductive Effect
  | charge
  | send
  | receive (outcome : Except AttemptError Unit)

-- `admission` is the permit of the `AdmitGuard`.
structure Call where
  priority  : Priority
  phase     : Phase
  admission : Option Permit
  log       : List Effect

-- What the call finds when it looks.
structure Choice where
  pressure     : ResourcePressure
  quota        : Except QuotaError Unit
  isSerialized : Bool
  reply        : Reply

namespace Call

def new (priority : Priority) : Call where
  priority  := priority
  phase     := .entered
  admission := none
  log       := []

variable (call : Call)

def guards : List Held :=
  call.phase.scope ++ call.admission.toList.map .permit

def move (phase : Phase) : Call :=
  { call with phase }

def logged (effect : Effect) : Call :=
  { call with log := call.log ++ [effect] }

-- The next access of the call. There is none if the call has to wait, or has returned.
def advance (config : LlmProviderConfig) (choice : Choice) (pool : Pool) : Option (Pool × Call) :=
  match call.phase with
  | .entered =>
    if ¬config.enabled then some (pool, call.move <| .returning [] .unsupported)
    else if call.priority = .p0 then
      match pool.take <| .permit .reservedP0 with
      | some pool => some (pool, { call.move .admitted with admission := some .reservedP0 })
      | none      => some (pool, call.move <| .returning [] <| .rejected .p0Busy)
    else
      pool.take (.counter .admissionWaiters) |>.map (·, call.move .counted)
  | .counted =>
    if AdmissionController.blocked choice.pressure call.priority then
      some (pool, call.move <| .returning call.phase.scope <|
        .rejected <| .rejectedByPressure choice.pressure)
    else
      some (pool, call.move .queued)
  | .queued =>
    pool.take (.permit .shared) |>.map (·, { call.move .granted with admission := some .shared })
  | .granted => some (pool.drop <| .counter .admissionWaiters, call.move .admitted)
  | .admitted =>
    match choice.quota with
    | .ok ()   => some (pool, call.logged .charge |>.move .charged)
    | .error e => some (pool, call.move <| .returning [] <| .refused e)
  | .charged           => pool.take (.counter .inflight) |>.map (·, call.move <| .acquiring 0)
  | .acquiring attempt =>
    pool.take (.permit .request) |>.map
      (·, call.move <| if config.rateLimited then .throttled attempt else .ready attempt)
  | .throttled attempt => pool.take (.permit .limiter) |>.map (·, call.move <| .pacing attempt)
  | .pacing attempt    => some (pool.drop <| .permit .limiter, call.move <| .ready attempt)
  | .ready attempt     =>
    if choice.isSerialized then
      some (pool, call.logged .send |>.move <| .sent attempt)
    else
      some (pool, call.move <| .answered attempt <| .error .permanent)
  | .sent attempt =>
    let outcome := choice.reply.outcome
    some (pool, call.logged (.receive outcome) |>.move <| .answered attempt outcome)
  | .answered attempt outcome =>
    some (pool.drop <| .permit .request, call.move <|
      match outcome with
      | .ok ()             => .returning [.counter .inflight] .completed
      | .error .transient  =>
        if attempt < config.maxRetries then .backingOff attempt
        else .returning [.counter .inflight] <| .failed .transient
      | .error e           => .returning [.counter .inflight] <| .failed e)
  | .backingOff attempt          => some (pool, call.move <| .acquiring (attempt + 1))
  | .returning (g :: gs) ending  => some (pool.drop g, call.move <| .returning gs ending)
  | .returning [] _              =>
    call.admission.map fun p => (pool.drop <| .permit p, { call with admission := none })

-- The future is dropped where it waits.
def cancel : Call :=
  match call.phase with
  | .returning _ _ => call
  | phase          => call.move <| .returning phase.scope .cancelled

end Call

structure State where
  pool  : Pool
  calls : List Call

inductive Event
  | call (priority : Priority)
  | proceed (i : Nat) (choice : Choice)
  | cancel (i : Nat)

def State.init (config : LlmProviderConfig) : State where
  pool  := .full (capacity config)
  calls := []

def State.step (config : LlmProviderConfig) (σ : State) : Event → State
  | .call priority    => { σ with calls := σ.calls ++ [.new priority] }
  | .proceed i choice =>
    match σ.calls[i]? with
    | none      => σ
    | some call =>
      match call.advance config choice σ.pool with
      | none              => σ
      | some (pool, call) => ⟨pool, σ.calls.set i call⟩
  | .cancel i =>
    match σ.calls[i]? with
    | none      => σ
    | some call => { σ with calls := σ.calls.set i call.cancel }

def run (config : LlmProviderConfig) (events : List Event) : State :=
  events.foldl (State.step config) (.init config)

end LlmProvider
