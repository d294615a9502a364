import OsintCore.Objects.Decode
import OsintCore.Objects.Text

structure RateLimitConfig where
  perSecond : ℚ := 1
  burst     : ℚ := 4
  deriving DecidableEq

-- Nanoseconds.
abbrev Duration := Nat

namespace Duration

def ofSecs (secs : Nat) : Duration :=
  secs * 10 ^ 9

-- The carry of the nanoseconds must not overflow the seconds. Unlike other structures a duration has
-- no unknown fields.
def decode (j : Json) : Option Duration := do
  let fields ← j.asStruct ["secs", "nanos"]
  if ¬fields.all (·.fst ∈ ["secs", "nanos"]) then none else
  let secs ← Json.decodeField fields "secs" (Json.decodeUnsigned 64)
  let nanos ← Json.decodeField fields "nanos" (Json.decodeUnsigned 32)
  if secs + nanos / 10 ^ 9 < 2 ^ 64 then some (secs * 10 ^ 9 + nanos) else none

end Duration

def RateLimitConfig.decode (j : Json) : Option RateLimitConfig := do
  let fields ← j.asStruct ["per_second", "burst"]
  let perSecond ← Json.decodeField fields "per_second" Json.decodeFloat
  let burst ← Json.decodeField fields "burst" Json.decodeFloat
  return { perSecond, burst }

inductive ConnectorError
  | invalidUrl (url : String)
  | unsupportedScheme (scheme : String)
  | missingHost
  | domainDenied (host : String)
  | domainNotAllowed (host : String)
  | hardDenied (host : String)
  | softDenied (host : String)
  | dns (host : String)
  | dnsEmpty (host : String)
  | audit
  | rateLimited (domain : String)
  | timeout
  | fetch
  | tooManyRedirects (limit : Nat)
  | responseTooLarge (limit : Nat)
  | policy
  | storage
  deriving DecidableEq, Repr

structure SourcePolicy where
  domainAllowlist  : List String     := []
  domainDenylist   : List String     := []
  maxRedirects     : Nat             := 5
  maxResponseBytes : Nat             := 10 * 1024 * 1024
  connectTimeout   : Duration        := .ofSecs 5
  requestTimeout   : Duration        := .ofSecs 30
  rateLimit        : RateLimitConfig := {}

-- The host without surrounding blanks, trailing dots and capital letters.
def normalizeHost (host : String) : String :=
  Text.toAsciiLowercase <| Text.trimEndMatches '.' <| Text.trim host

namespace SourcePolicy

def fieldNames : List String :=
  ["domain_allowlist", "domain_denylist", "max_redirects", "max_response_bytes", "connect_timeout",
    "request_timeout", "rate_limit"]

def decode (j : Json) : Option SourcePolicy := do
  let fields ← j.asStruct fieldNames
  let domainAllowlist ← Json.decodeField fields "domain_allowlist" (Json.decodeList Json.asStr)
  let domainDenylist ← Json.decodeField fields "domain_denylist" (Json.decodeList Json.asStr)
  let maxRedirects ← Json.decodeField fields "max_redirects" (Json.decodeUnsigned 32)
  let maxResponseBytes ← Json.decodeField fields "max_response_bytes" (Json.decodeUnsigned 64)
  let connectTimeout ← Json.decodeField fields "connect_timeout" Duration.decode
  let requestTimeout ← Json.decodeField fields "request_timeout" Duration.decode
  let rateLimit ← Json.decodeField fields "rate_limit" RateLimitConfig.decode
  return { domainAllowlist, domainDenylist, maxRedirects, maxResponseBytes, connectTimeout,
           requestTimeout, rateLimit }

def domainMatches (host rule : String) : Bool :=
  let rule := normalizeHost rule
  rule ≠ "" ∧ (host = rule ∨ Text.endsWith host ("." ++ rule))

def hostAllowed (policy : SourcePolicy) (host : String) : Except ConnectorError Unit :=
  let host := normalizeHost host
  if policy.domainDenylist.any (domainMatches host) then
    .error (.domainDenied host)
  else if policy.domainAllowlist.isEmpty then
    .ok ()
  else if policy.domainAllowlist.any (domainMatches host) then
    .ok ()
  else
    .error (.domainNotAllowed host)

end SourcePolicy

-- The JSON value of a source is only known to be an object.
def policyFromSource (collectionPolicy : Json) : SourcePolicy :=
  (SourcePolicy.decode collectionPolicy).getD {}

-- What the API accepts as a `collection_policy`.
def validateObject (value : Json) : Option Json :=
  value.asObject.map fun _ => value
