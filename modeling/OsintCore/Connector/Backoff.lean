import OsintCore.Connector.RunState
import OsintCore.Control.Except
import OsintCore.Fetch.Policy

-- The library which reads cron expressions.
structure CronLib (Cron : Type) where
  fromStr            : String → Except String Cron
  findNextOccurrence : Cron → Timestamp → Except String Timestamp

-- Both durations are whole seconds.
structure BackoffConfig where
  base : UInt64
  max  : UInt64

namespace Backoff

def u64Max : Nat := 2 ^ 64 - 1

def i64Max : Nat := 2 ^ 63 - 1

-- The seconds before the jitter. The doubling stops before the shift overflows.
def exponentialCapped (errorCount : Int32) (cfg : BackoffConfig) : Nat :=
  let exp := errorCount.toUInt32.toNat - 1
  if exp ≥ 63 then
    cfg.max.toNat
  else
    min (min (cfg.base.toNat * 2 ^ exp) u64Max) cfg.max.toNat

-- The seconds become milliseconds, in a type of 128 bits from which they are cast to 64 bits.
def applyJitter (delay : Nat) (connectorId : ConnectorId) (max : UInt64) : Duration :=
  if delay = 0 then
    0
  else
    let jitterBp : Int := (connectorId % 2001 : Nat) - 1000
    let delayMs  : Int := delay * 1000
    let maxMs    : Int := max.toNat * 1000
    let adjusted := delayMs * (10000 + jitterBp) / 10000
    let clamped  := Max.max 0 (Min.min adjusted maxMs)
    clamped.toNat % 2 ^ 64

-- In milliseconds
def retryBackoff (errorCount : Int32) (connectorId : ConnectorId) (cfg : BackoffConfig) :
    Duration :=
  if errorCount ≤ 0 ∨ cfg.base = 0 then
    0
  else
    applyJitter (exponentialCapped errorCount cfg) connectorId cfg.max

-- The first and the last instant of `DateTime<Utc>`, in microseconds.

def minUtc : Timestamp := -8334601228800000000

def maxUtc : Timestamp := 8210266876799999999

-- A duration which has no counterpart among the calendar's ones counts as none at all.
def addDuration (when : Timestamp) (delay : Duration) : Except Panic Timestamp :=
  let delta := if delay ≤ i64Max then delay else 0
  let t := when + (delta : Int) * 1000
  if minUtc ≤ t ∧ t ≤ maxUtc then
    .ok t
  else
    .error ⟨"`DateTime + TimeDelta` overflowed"⟩

variable {Cron : Type} (lib : CronLib Cron)

def cronNextAfter (schedule : String) (lastRun : Option Timestamp) (now : Timestamp) :
    Option Timestamp := do
  let cron ← (lib.fromStr schedule).toOption
  match lastRun with
  | none      => return now
  | some last => (lib.findNextOccurrence cron last).toOption

def nextAttemptAt (c : Connector) (now : Timestamp) (cfg : BackoffConfig) :
    Except Panic (Option Timestamp) := do
  let schedule := (c.schedule.map Text.trim).getD ""
  if schedule = "" then
    return none
  let backoffUntil ← match c.lastRun with
    | some last => addDuration last (retryBackoff c.errorCount c.id cfg)
    | none      => pure now
  let cronNext := (cronNextAfter lib schedule c.lastRun now).getD now
  return some (max cronNext backoffUntil)

def isBackingOff (c : Connector) (now : Timestamp) (cfg : BackoffConfig) : Except Panic Bool :=
  if c.errorCount ≤ 0 then
    return false
  else match c.lastRun with
    | none      => return false
    | some last => do
      let until' ← addDuration last (retryBackoff c.errorCount c.id cfg)
      return decide (now < until')

end Backoff
