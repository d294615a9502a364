import OsintCore.Fetch.Policy

inductive AttemptClass
  | success | rateLimited | timeout | serverError | other
  deriving DecidableEq, Repr

inductive ResourcePressure
  | normal | elevated | high | critical
  deriving DecidableEq, Repr

namespace ResourcePressure

def severity : ResourcePressure → Nat
  | normal   => 0
  | elevated => 1
  | high     => 2
  | critical => 3

def stepDown : ResourcePressure → ResourcePressure
  | critical => high
  | high     => elevated
  | elevated => normal
  | normal   => normal

end ResourcePressure

-- Floating-point numbers are only ever compared.
structure PressureThresholds (F : Type) where
  enabled              : Bool
  window               : Duration
  minSamples           : Nat
  cooldown             : Duration
  elevatedP95          : Duration
  highP95              : Duration
  criticalP95          : Duration
  elevated429Ratio     : F
  high429Ratio         : F
  critical429Ratio     : F
  elevatedTimeoutRatio : F
  highTimeoutRatio     : F
  criticalTimeoutRatio : F
  elevated5xxRatio     : F
  high5xxRatio         : F
  critical5xxRatio     : F
  elevatedQueue        : Nat
  highQueue            : Nat
  criticalQueue        : Nat

-- An instant is the duration since the clock was started.
structure PressureSample where
  «at»    : Duration
  latency : Duration
  «class» : AttemptClass
  deriving DecidableEq

structure ObservedPressure (F : Type) where
  samples    : List PressureSample
  level      : ResourcePressure
  lastChange : Duration
  queueDepth : Nat
  thresholds : PressureThresholds F

-- Nothing depends on the number, which is not to be counted down.
@[irreducible]
def maxSamples : Nat := 1024

-- The difference of two instants is zero if it would be negative.
def isStale (window now : Duration) (sample : PressureSample) : Bool :=
  window < now - sample.at

def prune (window now : Duration) (samples : List PressureSample) : List PressureSample :=
  samples.dropWhile (isStale window now)

-- The index is exact: the product is never so close to an integer as its rounding error.
def percentile95 (latencies : List Duration) : Duration :=
  let values := latencies.insertionSort (· ≤ ·)
  let idx := (19 * values.length + 19) / 20
  let idx := min (idx - 1) (values.length - 1)
  values[idx]?.getD 0

section

variable {F : Type} [LE F] [DecidableLE F] (ratio : Nat → Nat → F)

-- The division of floating-point numbers is a parameter.
def rawLevel (samples : List PressureSample) (queue : Nat) (t : PressureThresholds F) :
    ResourcePressure :=
  if samples.length < t.minSamples then .normal else
  let n := samples.length
  let p95 := percentile95 <| samples.map (·.latency)
  let ratio429 := ratio (samples.countP (·.class = .rateLimited)) n
  let ratioTimeout := ratio (samples.countP (·.class = .timeout)) n
  let ratio5xx := ratio (samples.countP (·.class = .serverError)) n
  let level := .normal
  let level :=
    if t.elevatedP95 ≤ p95 ∨ t.elevated429Ratio ≤ ratio429 ∨
      t.elevatedTimeoutRatio ≤ ratioTimeout ∨ t.elevated5xxRatio ≤ ratio5xx ∨
      t.elevatedQueue ≤ queue then .elevated else level
  let level :=
    if t.highP95 ≤ p95 ∨ t.high429Ratio ≤ ratio429 ∨ t.highTimeoutRatio ≤ ratioTimeout ∨
      t.high5xxRatio ≤ ratio5xx ∨ t.highQueue ≤ queue then .high else level
  if t.criticalP95 ≤ p95 ∨ t.critical429Ratio ≤ ratio429 ∨ t.criticalTimeoutRatio ≤ ratioTimeout ∨
    t.critical5xxRatio ≤ ratio5xx ∨ t.criticalQueue ≤ queue then .critical else level

end

namespace ObservedPressure

variable {F : Type}

def withClock (thresholds : PressureThresholds F) (now : Duration) : ObservedPressure F where
  samples    := []
  level      := .normal
  lastChange := now
  queueDepth := 0
  thresholds := thresholds

variable (p : ObservedPressure F)

def setQueueDepth (depth : Nat) : ObservedPressure F :=
  { p with queueDepth := depth }

def record (now : Duration) («class» : AttemptClass) (latency : Duration) : ObservedPressure F :=
  { p with
    samples := (prune p.thresholds.window now <|
      p.samples ++ [{ «at» := now, latency, «class» }]).rtake maxSamples }

def applyHysteresis (raw : ResourcePressure) (now : Duration) : ObservedPressure F :=
  if p.level.severity < raw.severity then
    { p with level := raw, lastChange := now }
  else if raw.severity < p.level.severity ∧ p.thresholds.cooldown ≤ now - p.lastChange then
    { p with level := p.level.stepDown, lastChange := now }
  else
    p

def evaluate [LE F] [DecidableLE F] (ratio : Nat → Nat → F) (now : Duration) :
    ResourcePressure × ObservedPressure F :=
  if !p.thresholds.enabled then (.normal, p) else
  let samples := prune p.thresholds.window now p.samples
  let raw := rawLevel ratio samples p.queueDepth p.thresholds
  let p := { p with samples }.applyHysteresis raw now
  (p.level, p)

end ObservedPressure
