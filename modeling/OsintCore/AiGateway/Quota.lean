import OsintCore.Control.Run
import OsintCore.Objects.Basic
import OsintCore.Normalizer.Store

abbrev RunId := Uuid

-- A date of UTC.
abbrev Day := Int

inductive AiAccount
  | collection (collectionId : CollectionId) (runId : Option RunId)
  | system
  deriving DecidableEq

inductive AiGatewayError
  | quotaExceeded (message : String)
  | backend
  deriving DecidableEq, Repr

structure AiBudgetLimits where
  dailyAiBudget    : Int
  maxAiCallsPerRun : Int
  deriving DecidableEq

def defaultLimits : AiBudgetLimits where
  dailyAiBudget    := 500
  maxAiCallsPerRun := 50

structure DailyConsume where
  allowed   : Bool
  usedAfter : Int
  deriving DecidableEq

def runExceeded (used max : Int) : AiGatewayError :=
  .quotaExceeded <| "本 run 已達 max_ai_calls_per_run（已用 " ++ toString used ++ "/" ++ toString max ++
    "）。這個上限是單次 Discovery job 的 AI 呼叫數，不會因為重試而重置；" ++
    "請等下次 run，或把該 collection 的 max_ai_calls_per_run 調高"

def dailyExceeded (used budget : Int) : AiGatewayError :=
  .quotaExceeded <| "今日 AI 呼叫已達 daily_ai_budget（已用 " ++ toString used ++ "/" ++
    toString budget ++ "）。SPEC_V0.3 §21 E 要求超過額度後停止新增 AI request，不會重試。" ++
    "請等 UTC 日期切換，或把該 collection 的 daily_ai_budget 調高"

-- `discovery_daily_usage.ai_calls_used`, and the counters of the process.
abbrev DailyUsage := CollectionId → Day → Option Int
abbrev PerRun := RunId → Option Int

-- The statement of `try_consume_daily_usage` which fails. It has no effect.
inductive Statement
  | insert | update | select
  deriving DecidableEq

def DailyUsage.set (usage : DailyUsage) (collectionId : CollectionId) (day : Day) (used : Int) :
    DailyUsage :=
  Function.update usage collectionId <| Function.update (usage collectionId) day (some used)

def tryConsumeDailyUsage (usage : DailyUsage) (collectionId : CollectionId) (day : Day)
    (by' budget : Int) (fault : Option Statement) :
    Except AiGatewayError DailyConsume × DailyUsage :=
  if fault = some .insert then (.error .backend, usage)
  else
    -- ON CONFLICT DO NOTHING
    let used  := (usage collectionId day).getD 0
    let usage := usage.set collectionId day used
    if fault = some .update then (.error .backend, usage)
    else if used + by' ≤ budget then
      (.ok ⟨true, used + by'⟩, usage.set collectionId day (used + by'))
    else if fault = some .select then (.error .backend, usage)
    else (.ok ⟨false, used⟩, usage)

def tryReserveRun (perRun : PerRun) (runId : RunId) (max : Int) : Except Int Int × PerRun :=
  let used := (perRun runId).getD 0
  if used ≥ max then (.error used, Function.update perRun runId (some used))
  else (.ok (used + 1), Function.update perRun runId (some (used + 1)))

def releaseRun (perRun : PerRun) (runId : RunId) : PerRun :=
  match perRun runId with
  | none      => perRun
  | some used => Function.update perRun runId (some (used - 1))

-- How far a call of `try_consume` has come.
inductive Stage
  | called
  | loaded
  | reserved
  -- The reservation is still to be given back.
  | refused (error : AiGatewayError)
  | returned (result : Except AiGatewayError (Option Day))

structure AiCall where
  account : AiAccount
  stage   : Stage := .called

-- Where each call is, and what is shared between the calls. The limits do not change.
structure StoreAiQuota where
  loadLimits : CollectionId → Option AiBudgetLimits
  usage      : DailyUsage  := fun _ _ => none
  perRun     : PerRun      := fun _ => none
  calls      : List AiCall := []

namespace StoreAiQuota

inductive Action
  | call (account : AiAccount)
  -- The next step of the `i`-th call, on this day. The backend may fail.
  | step (i : Nat) (day : Day) (fault : Option Statement)

variable (q : StoreAiQuota)

def limits (collectionId : CollectionId) : AiBudgetLimits :=
  (q.loadLimits collectionId).getD defaultLimits

def reached (i : Nat) (call : AiCall) (stage : Stage) : StoreAiQuota :=
  { q with calls := q.calls.set i { call with stage } }

def reserve (i : Nat) (call : AiCall) (collectionId : CollectionId) (runId : Option RunId) :
    StoreAiQuota :=
  match runId with
  | none       => q.reached i call .reserved
  | some runId =>
    let max := (q.limits collectionId).maxAiCallsPerRun
    match tryReserveRun q.perRun runId max with
    | (.ok _, perRun)       => { q with perRun }.reached i call .reserved
    | (.error used, perRun) =>
      { q with perRun }.reached i call (.returned (.error (runExceeded used max)))

-- A call without a run has no reservation to give back.
def refuse (i : Nat) (call : AiCall) (runId : Option RunId) (error : AiGatewayError) : StoreAiQuota :=
  q.reached i call (if runId.isSome then .refused error else .returned (.error error))

def consume (i : Nat) (call : AiCall) (collectionId : CollectionId) (runId : Option RunId)
    (day : Day) (fault : Option Statement) : StoreAiQuota :=
  let budget := (q.limits collectionId).dailyAiBudget
  match tryConsumeDailyUsage q.usage collectionId day 1 budget fault with
  | (.error e, usage)    => { q with usage }.refuse i call runId e
  | (.ok consume, usage) =>
    if consume.allowed then { q with usage }.reached i call (.returned (.ok (some day)))
    else { q with usage }.refuse i call runId (dailyExceeded consume.usedAfter budget)

def advance (i : Nat) (call : AiCall) (day : Day) (fault : Option Statement) : StoreAiQuota :=
  match call.account with
  | .system                        => q.reached i call (.returned (.ok none))
  | .collection collectionId runId =>
    match call.stage with
    | .called =>
      if fault.isSome then q.reached i call (.returned (.error .backend))
      else q.reached i call .loaded
    | .loaded     => q.reserve i call collectionId runId
    | .reserved   => q.consume i call collectionId runId day fault
    | .refused e  =>
      let perRun := runId.elim q.perRun (releaseRun q.perRun)
      { q with perRun }.reached i call (.returned (.error e))
    | .returned _ => q

def step : Action → StoreAiQuota
  | .call account     => { q with calls := q.calls ++ [{ account }] }
  | .step i day fault =>
    match q.calls[i]? with
    | none      => q
    | some call => q.advance i call day fault

def run (l : List Action) : StoreAiQuota :=
  l.foldl step q

end StoreAiQuota
