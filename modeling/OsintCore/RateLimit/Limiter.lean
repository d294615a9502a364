import OsintCore.Control.TokenBucket
import OsintCore.Fetch.Policy

-- Numbers are exact, and an instant is a number of seconds.
abbrev Instant := ℚ

abbrev Bucket := TokenBucket ℚ

-- The limiter of the connectors, which has a bucket for each domain it has been asked for.
structure DomainRateLimiter where
  inner  : String → Option Bucket
  config : RateLimitConfig

namespace DomainRateLimiter

def new (config : RateLimitConfig) : DomainRateLimiter where
  inner _ := none
  config  := config

variable (l : DomainRateLimiter)

def setBucket (domain : String) (bucket : Bucket) : DomainRateLimiter :=
  { l with inner := Function.update l.inner domain (some bucket) }

def acquire (domain : String) (now : Instant) : Except ConnectorError Unit × DomainRateLimiter :=
  let domain    := normalizeHost domain
  let burst     := max l.config.burst 1
  let perSecond := max l.config.perSecond 0.001
  let bucket    := (l.inner domain).getD ⟨burst, now⟩
  let elapsed   := max (now - bucket.last) 0
  let tokens    := min (bucket.tokens + elapsed * perSecond) burst
  if 1 ≤ tokens then
    (.ok (), l.setBucket domain ⟨tokens - 1, now⟩)
  else
    (.error (.rateLimited domain), l.setBucket domain ⟨tokens, now⟩)

end DomainRateLimiter

-- The limiter of the API, with one bucket for all requests.
structure RateLimiter where
  inner     : Bucket
  perSecond : ℚ

namespace RateLimiter

def new (perSecond : UInt32) (now : Instant) : RateLimiter :=
  let perSecond : ℚ := (max perSecond 1).toNat
  { inner := ⟨perSecond, now⟩, perSecond }

def tryAcquire (l : RateLimiter) (now : Instant) : Bool × RateLimiter :=
  let elapsed := max (now - l.inner.last) 0
  let tokens  := min (l.inner.tokens + elapsed * l.perSecond) l.perSecond
  if 1 ≤ tokens then
    (true, { l with inner := ⟨tokens - 1, now⟩ })
  else
    (false, { l with inner := ⟨tokens, now⟩ })

end RateLimiter
