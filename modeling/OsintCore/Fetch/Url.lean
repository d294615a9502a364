import OsintCore.Objects.Text

-- A URL which has been parsed. Everything behind the host and the port is kept as one text.
structure Url where
  scheme : String
  host   : Option String
  port   : Option Nat
  rest   : String
  deriving DecidableEq, Repr

namespace Url

def knownDefaultPort : String → Option Nat
  | "http"  | "ws"  => some 80
  | "https" | "wss" => some 443
  | "ftp"           => some 21
  | _               => none

def portOrKnownDefault (url : Url) : Option Nat :=
  url.port <|> knownDefaultPort url.scheme

end Url

inductive Ip
  | v4 (a b c d : UInt8)
  | v6 (a b c d e f g h : UInt16)
  deriving DecidableEq, Repr

-- The libraries which read URLs, addresses and networks.
structure NetLib where
  parseUrl      : String → Option Url
  join          : Url → String → Option Url
  urlText       : Url → String
  setPath       : Url → String → Url
  queryPairs    : Url → List (String × String)
  setQueryPairs : Url → List (String × String) → Url
  parseIp       : String → Option Ip
  parseNet      : String → Option (Ip → Bool)

-- The libraries as far as the listed texts go.
def NetLib.ofTable (urls : List (String × Url)) (ips : List (String × Ip)) : NetLib where
  parseUrl            := (List.lookup · urls)
  join _ location     := List.lookup location urls
  urlText url         := urls.find? (·.snd = url) |>.elim "" Prod.fst
  setPath url path    := { url with rest := path }
  queryPairs _        := []
  setQueryPairs url _ := url
  parseIp             := (List.lookup · ips)
  parseNet _          := none
