import OsintCore.Fetch.Url
import OsintCore.Url.PercentEncoding

-- A URL which has been parsed, with all of its parts.
structure ParsedUrl where
  scheme         : String
  username       : String
  password       : Option String
  host           : Option String
  port           : Option Nat
  path           : String
  query          : Option String
  fragment       : Option String
  cannotBeABase  : Bool
  deriving DecidableEq, Repr

-- The library which reads URLs. How it reads a path depends on the kind of the URL.
structure UrlLib where
  parse         : String → Option ParsedUrl
  text          : ParsedUrl → String
  parsePath     : String → Bool → String → String
  formParse     : String → List (String × String)
  formSerialize : List (String × String) → String

namespace ParsedUrl

variable (url : ParsedUrl)

def isWeb : Bool :=
  url.scheme = "http" || url.scheme = "https"

def cannotHaveUserinfo : Bool :=
  url.host = none || url.host = some "" || url.scheme = "file"

def removeUserinfo : ParsedUrl :=
  if url.cannotHaveUserinfo then url else { url with username := "", password := none }

-- Spaces at the end of an opaque path only stay in front of a query or a fragment.
def stripTrailingSpaces : ParsedUrl :=
  if url.cannotBeABase ∧ url.query = none ∧ url.fragment = none then
    { url with path := Text.trimEndMatches ' ' url.path }
  else
    url

def removeFragment : ParsedUrl :=
  { url with fragment := none }.stripTrailingSpaces

def removeQuery : ParsedUrl :=
  { url with query := none }.stripTrailingSpaces

def setQueryPairs (lib : UrlLib) (pairs : List (String × String)) : ParsedUrl :=
  { url with query := some <| lib.formSerialize pairs }

def queryPairs (lib : UrlLib) : List (String × String) :=
  url.query.elim [] lib.formParse

def setPath (lib : UrlLib) (path : String) : ParsedUrl :=
  { url with path := lib.parsePath url.scheme url.cannotBeABase path }

end ParsedUrl

namespace UrlNorm

def trackingParams : List String :=
  ["gclid", "gclsrc", "dclid", "gbraid", "wbraid", "fbclid", "msclkid", "yclid", "_openstat",
   "mc_cid", "mc_eid", "_hsenc", "_hsmi", "hsctatracking", "igshid", "ttclid", "twclid", "spm",
   "scm", "ref", "ref_src", "ref_url", "referrer", "referer", "cmpid", "campaignid", "s_cid",
   "icid", "ncid", "sr_share", "vero_id", "vero_conv", "oly_anon_id", "oly_enc_id", "wickedid"]

def trackingPrefixes : List String :=
  ["utm_", "pk_", "mtm_", "matomo_"]

def importUrlPrefix : String := "import://"

-- A prefix which cuts a character is none.
def isSyntheticImportUrl (raw : String) : Bool :=
  let start := raw.toList.dropWhile Text.isWhitespace
  match Text.splitAtByte (Text.byteLen importUrlPrefix.toList) start with
  | some (head, _) => Text.eqIgnoreAsciiCase (.ofList head) importUrlPrefix
  | none           => false

def isTrackingParam (name : String) : Bool :=
  let lower := Text.toAsciiLowercase name
  lower ∈ trackingParams || trackingPrefixes.any (Text.startsWith lower)

variable (lib : UrlLib)

def isHttpOrHttps (raw : String) : Bool :=
  (lib.parse (Text.trim raw)).any ParsedUrl.isWeb

def sortPairs (pairs : List (String × String)) : List (String × String) :=
  pairs.insertionSort fun a b => toLex a ≤ toLex b

def keptPairs (url : ParsedUrl) : List (String × String) :=
  sortPairs <| url.queryPairs lib |>.filter (¬isTrackingParam ·.fst)

def normalizeQuery (url : ParsedUrl) : ParsedUrl :=
  if url.query.isSome then
    if keptPairs lib url = [] then url.removeQuery else url.setQueryPairs lib (keptPairs lib url)
  else
    url

def fillPath (url : ParsedUrl) : ParsedUrl :=
  if url.path = "" then url.setPath lib "/" else url

def normalizePath (url : ParsedUrl) : Except Panic ParsedUrl := do
  let normalizedPath ← PercentEncoding.normalizePercentEncoding url.path
  return if normalizedPath ≠ url.path then url.setPath lib normalizedPath else url

def canonicalize (raw : String) : Except Panic (Option String) :=
  match lib.parse (Text.trim raw) with
  | none     => return none
  | some url => do
    let url := normalizeQuery lib url.removeFragment.removeUserinfo
    let url ← normalizePath lib (fillPath lib url)
    return some (lib.text url)

def shortBytes : Nat := 120

def short (url : String) : Except Panic String :=
  if Text.byteLen url.toList ≤ shortBytes then
    return url
  else do
    let start ← Text.sliceTo url shortBytes
    return start ++ "…"

end UrlNorm

-- A library for which no text is a URL

def Sample.noUrls : UrlLib where
  parse _         := none
  text            := ParsedUrl.path
  parsePath _ _ p := p
  formParse _     := []
  formSerialize _ := ""
