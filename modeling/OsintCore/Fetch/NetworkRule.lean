import OsintCore.Fetch.Guard
import OsintCore.Resources.Basic

namespace Ip

def width : Ip → Nat
  | v4 .. => 32
  | v6 .. => 128

-- The address as a number.
def value : Ip → Nat
  | v4 a b c d         => [a, b, c, d].foldl (· * 2 ^ 8 + ·.toNat) 0
  | v6 a b c d e f g h => [a, b, c, d, e, f, g, h].foldl (· * 2 ^ 16 + ·.toNat) 0

-- The address of the same kind with another number.
def withValue (n : Nat) : Ip → Ip
  | v4 .. =>
    let octet i := (n / 2 ^ (8 * i)).toUInt8
    .v4 (octet 3) (octet 2) (octet 1) (octet 0)
  | v6 .. =>
    let segment i := (n / 2 ^ (16 * i)).toUInt16
    .v6 (segment 7) (segment 6) (segment 5) (segment 4) (segment 3) (segment 2) (segment 1)
      (segment 0)

end Ip

structure IpNet where
  addr         : Ip
  prefixLen    : Nat
  prefixLen_le : prefixLen ≤ addr.width

namespace IpNet

def hostBits (net : IpNet) : Nat :=
  net.addr.width - net.prefixLen

def network (net : IpNet) : Ip :=
  net.addr.withValue <| net.addr.value / 2 ^ net.hostBits * 2 ^ net.hostBits

-- Networks of one kind of address contain no addresses of the other.
def contains (net : IpNet) (ip : Ip) : Bool :=
  ip.width = net.addr.width ∧
    ip.value / 2 ^ net.hostBits = net.addr.value / 2 ^ net.hostBits

end IpNet

-- The library which reads networks, with the networks themselves.
structure RuleLib extends NetLib where
  parseIpNet    : String → Option IpNet
  parseNet_eq s : parseNet s = (parseIpNet s).map IpNet.contains

inductive RuleError
  | networkRuleForbidden (role : String)
  | missingRuleReason
  | missingApprover
  | invalidNetworkRule (cidrOrHost message : String)
  | hardDenied (host detail : String)
  deriving DecidableEq

def cidrCoversHardDeny (net : IpNet) : Bool :=
  let hard : List Ip :=
    [.v4 169 254 169 254, .v4 169 254 169 253, .v4 168 63 129 16, .v4 100 100 100 200,
      .v6 0xfd00 0xec2 0 0 0 0 0 0x254]
  hard.any net.contains

def validateNetworkRule (lib : RuleLib) (role : Resources.Role) (rule : NetworkRule) :
    Except RuleError Unit :=
  if ¬role.includes .operator then
    .error (.networkRuleForbidden role.asStr)
  else if Text.trim rule.reason = "" then
    .error .missingRuleReason
  else if Text.trim rule.approvedBy = "" then
    .error .missingApprover
  else if '*' ∈ rule.cidrOrHost.toList ∨ '?' ∈ rule.cidrOrHost.toList then
    .error (.invalidNetworkRule rule.cidrOrHost
      "禁止萬用字元。請寫精確 hostname 或 CIDR，例如 10.0.0.0/8 或 api.internal.example")
  else
    let target := Text.trim rule.cidrOrHost
    if target = "" then
      .error (.invalidNetworkRule rule.cidrOrHost "cidr_or_host 不能是空的")
    else
      match lib.parseIpNet target with
      | some net =>
        if net.addr.classify = .hardDeny ∨ net.network.classify = .hardDeny ∨
            cidrCoversHardDeny net then
          .error (.hardDenied target "這條規則涵蓋 cloud metadata／硬拒絕位址")
        else
          .ok ()
      | none =>
        match lib.parseIp target with
        | some ip =>
          if ip.classify = .hardDeny then
            .error (.hardDenied target "這是 cloud metadata 位址")
          else
            .ok ()
        | none =>
          if classifyHost lib.toNetLib target = some .hardDeny then
            .error (.hardDenied target "這是 cloud metadata hostname")
          else
            .ok ()
