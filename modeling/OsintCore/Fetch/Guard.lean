import OsintCore.Control.Resumption
import OsintCore.Fetch.Policy
import OsintCore.Fetch.Url

inductive IpClass
  | hardDeny | softDeny | «public»
  deriving DecidableEq, Repr

namespace Ip

def classifyV4 (a b c d : UInt8) : IpClass :=
  -- The metadata services of the clouds.
  if [a, b, c, d] ∈ [[169, 254, 169, 254], [100, 100, 100, 200], [169, 254, 169, 253],
    [168, 63, 129, 16]] then .hardDeny
  else if a = 127 ∨ [a, b, c, d] = [0, 0, 0, 0] ∨ [a, b, c, d] = [255, 255, 255, 255] then .softDeny
  else if a = 169 ∧ b = 254 then .softDeny
  else if a = 10 ∨ a = 172 ∧ 16 ≤ b ∧ b < 32 ∨ a = 192 ∧ b = 168 then .softDeny
  else if a = 100 ∧ 64 ≤ b ∧ b < 128 then .softDeny
  else if a = 0 ∨ a = 127 ∨ a = 192 ∧ b = 0 ∧ c = 2 ∨ a = 198 ∧ b = 51 ∧ c = 100 ∨
    a = 203 ∧ b = 0 ∧ c = 113 ∨ 224 ≤ a then .softDeny
  else .public

-- The two octets of a segment.
def octets (s : UInt16) : UInt8 × UInt8 :=
  ((s >>> 8).toUInt8, s.toUInt8)

def classifyEmbedded (g h : UInt16) : IpClass :=
  classifyV4 (octets g).fst (octets g).snd (octets h).fst (octets h).snd

def classifyV6 (a b c d e f g h : UInt16) : IpClass :=
  if [a, b, c, d, e, f] = [0, 0, 0, 0, 0, 0xffff] then classifyEmbedded g h
  else if [a, b, c, d, e, f, g, h] = [0xfd00, 0xec2, 0, 0, 0, 0, 0, 0x254] then .hardDeny
  else if [a, b, c, d, e, f, g] = [0, 0, 0, 0, 0, 0, 0] ∧ (h = 1 ∨ h = 0) then .softDeny
  else if a &&& 0xffc0 = 0xfe80 then .softDeny
  else if a &&& 0xfe00 = 0xfc00 then .softDeny
  else if a &&& 0xff00 = 0xff00 then .softDeny
  else if [a, b, c, d, e, f] = [0, 0, 0, 0, 0, 0] then classifyEmbedded g h
  else .public

def classify : Ip → IpClass
  | v4 a b c d         => classifyV4 a b c d
  | v6 a b c d e f g h => classifyV6 a b c d e f g h

end Ip

def hardDenyHosts : List String :=
  ["metadata.google.internal", "metadata.google.com", "metadata.goog"]

def classifyHost (lib : NetLib) (host : String) : Option IpClass :=
  let host := normalizeHost host
  if host ∈ hardDenyHosts then some .hardDeny else lib.parseIp host |>.map Ip.classify

structure NetworkRule where
  id         : Uuid
  sourceId   : SourceId
  cidrOrHost : String
  ports      : Option (List Nat)
  reason     : String
  approvedBy : String
  expiresAt  : Option Timestamp

namespace NetworkRule

def isExpired (rule : NetworkRule) (now : Timestamp) : Bool :=
  rule.expiresAt.any (· ≤ now)

def isMatch (lib : NetLib) (rule : NetworkRule) (host : String) (ip : Ip) (port : Nat)
    (now : Timestamp) : Bool :=
  if rule.isExpired now then false
  else if rule.ports.any (port ∉ ·) then false
  else
    let target := Text.trim rule.cidrOrHost
    match lib.parseNet target with
    | some net => net ip
    | none     =>
      match lib.parseIp target with
      | some ruleIp => ruleIp = ip
      | none        => host = Text.toAsciiLowercase (Text.trimEndMatches '.' target)

end NetworkRule

def matchingRule (lib : NetLib) (rules : List NetworkRule) (host : String) (ip : Ip) (port : Nat)
    (now : Timestamp) : Option NetworkRule :=
  if ip.classify = .hardDeny then none
  else
    let host := normalizeHost host
    rules.find? (·.isMatch lib host ip port now)

abbrev Bytes := List UInt8

inductive Method
  | get | post | put | patch | head
  deriving DecidableEq, Repr

-- A request, with the name and the address for which the client skips the name resolution.
structure Request where
  method     : Method
  url        : Url
  headers    : List (String × String)
  body       : Option Bytes
  pinnedHost : String
  pinnedIp   : Ip
  pinnedPort : Nat

-- A header whose value is no text is not read. A chunk of the body may be missing.
structure Response where
  status        : Nat
  headers       : List (String × Option String)
  contentLength : Option Nat
  chunks        : List (Option Bytes)

inductive SendError
  | timeout | other
  deriving DecidableEq

structure Exchange where
  request : Request
  answer  : Except SendError Response

-- What has been sent and answered so far.
abbrev Log := List Exchange

abbrev Fetching := Resumption Log ConnectorError

-- Name servers, servers and everything else outside may take into account what has happened so far.
structure Environment where
  resolve : Log → String → Except ConnectorError (List Ip)
  audit   : Log → Bool
  allows  : Log → String → Bool
  now     : Log → Timestamp
  answer  : Log → Request → Except SendError Response

structure SsrfDecision where
  host        : String
  port        : Nat
  ips         : List Ip
  allowlisted : Option NetworkRule
  ips_ne_nil  : ips ≠ []

structure SsrfGuard where
  sourceId : SourceId
  policy   : SourcePolicy
  rules    : List NetworkRule

-- The entry of the audit log for a URL which a rule has let pass. Its metadata are kept as they are
-- before they become text.
structure AllowlistEntry where
  actor        : String
  action       : String := "connector.ssrf.allowlist"
  resourceType : String := "source"
  resourceId   : SourceId
  outcome      : String := "allowed"
  sourceId     : SourceId
  ruleId       : Uuid
  cidrOrHost   : String
  host         : String
  ips          : List Ip
  port         : Nat

namespace SsrfGuard

variable (g : SsrfGuard) (lib : NetLib) (env : Environment)

def ofExcept {α : Type} : Except ConnectorError α → Fetching α
  | .ok a    => .done a
  | .error e => .fail e

-- The rule by which the last address passes that needs one.
def admitIp (host : String) (port : Nat) (now : Timestamp) (allowlisted : Option NetworkRule)
    (ip : Ip) : Except ConnectorError (Option NetworkRule) :=
  match ip.classify with
  | .hardDeny => .error (.hardDenied host)
  | .public   => .ok allowlisted
  | .softDeny =>
    match matchingRule lib g.rules host ip port now with
    | some rule => .ok (some rule)
    | none      => .error (.softDenied host)

def resolveHost (host : String) : Fetching (List Ip) :=
  match lib.parseIp host with
  | some ip => return [ip]
  | none    => do
    let ips ← .read (env.resolve · host)
    ofExcept ips

def auditAllowlist (allowlisted : Option NetworkRule) : Fetching Unit :=
  match allowlisted with
  | none   => return ()
  | some _ => do
    let appended ← .read env.audit
    if appended then return () else .fail .audit

def check (url : Url) (now : Timestamp) : Fetching SsrfDecision := do
  if url.scheme ≠ "http" ∧ url.scheme ≠ "https" then
    .fail (.unsupportedScheme url.scheme)
  else
    match url.host with
    | none      => .fail .missingHost
    | some host => do
      let host := normalizeHost host
      let port := url.portOrKnownDefault.getD (if url.scheme = "https" then 443 else 80)
      ofExcept (g.policy.hostAllowed host)
      if classifyHost lib host = some .hardDeny then
        .fail (.hardDenied host)
      else do
        let ips ← resolveHost lib env host
        if h : ips = [] then
          .fail (.dnsEmpty host)
        else do
          let allowlisted ← ofExcept <| ips.foldlM (g.admitIp lib host port now) none
          auditAllowlist env allowlisted
          return { host, port, ips, allowlisted, ips_ne_nil := h }

def pinnedIp (d : SsrfDecision) : Ip :=
  d.ips.head d.ips_ne_nil

-- What `check` hands to the audit log before it returns the decision.
def allowlistEntry (g : SsrfGuard) (d : SsrfDecision) : Option AllowlistEntry :=
  d.allowlisted.map fun matched =>
    { actor      := matched.approvedBy
      resourceId := g.sourceId
      sourceId   := g.sourceId
      ruleId     := matched.id
      cidrOrHost := matched.cidrOrHost
      host       := d.host
      ips        := d.ips
      port       := d.port }

end SsrfGuard
