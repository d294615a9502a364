import OsintCore.Connector.Backoff

namespace Collector

inductive KnownConnectorKind
  | rssOrAtom
  | staticWeb
  | restApi
  deriving DecidableEq

def classifyConnectorType (connectorType : String) : Option KnownConnectorKind :=
  match Text.toAsciiLowercase (Text.trim connectorType) with
  | "rss" | "atom"                        => some .rssOrAtom
  | "static_web" | "static-web" | "web"   => some .staticWeb
  | "rest_api" | "rest-api" | "rest"      => some .restApi
  | _                                     => none

def isImportOnlyType (connectorType : String) : Bool :=
  Text.toAsciiLowercase (Text.trim connectorType) ∈
    ["manual_upload", "manual", "json_import", "csv_import", "stix_import"]

def isUnscheduled (schedule : Option String) : Bool :=
  (schedule.map Text.trim).getD "" = ""

variable {Cron : Type} (lib : CronLib Cron)

-- `CollectorError::InvalidSchedule`, as it is displayed
def invalidSchedule (schedule message : String) : String :=
  "cron `" ++ schedule ++ "` 無效：" ++ message ++
    "。請用 5 欄（分 時 日 月 週），例如 `*/15 * * * *`"

def parseCron (schedule : String) : Except String Cron :=
  lib.fromStr (Text.trim schedule) |>.mapError <| invalidSchedule (Text.trim schedule)

def isDue (schedule : String) (lastRun : Option Timestamp) (now : Timestamp) :
    Except String Bool := do
  let cron ← parseCron lib schedule
  match lastRun with
  | none      => return true
  | some last =>
    if last ≥ now then
      return false
    match lib.findNextOccurrence cron last with
    | .ok next => return decide (next ≤ now)
    | .error _ => return false

inductive TickPlan
  | skipImport
  | skipUnscheduled
  | skipUnknownType
  | skipInvalidSchedule (message : String)
  | notDue
  | backingOff («until» : Timestamp)
  | run
  deriving DecidableEq

def planTick (c : Connector) (now : Timestamp) (cfg : BackoffConfig) : Except Panic TickPlan :=
  if isImportOnlyType c.connectorType then
    return .skipImport
  else if classifyConnectorType c.connectorType = none then
    return .skipUnknownType
  else if isUnscheduled c.schedule then
    return .skipUnscheduled
  else match isDue lib (c.schedule.getD "") c.lastRun now with
    | .error message => return .skipInvalidSchedule message
    | .ok false      => return .notDue
    | .ok true       => do
      if ← Backoff.isBackingOff c now cfg then
        return .backingOff ((← Backoff.nextAttemptAt lib c now cfg).getD now)
      else
        return .run

end Collector
