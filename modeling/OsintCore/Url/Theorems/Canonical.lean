import OsintCore.Control.Except
import OsintCore.Url.Canonical
import OsintCore.Url.Theorems.PercentEncoding

open PercentEncoding (normalize)

namespace UrlNorm

variable {lib : UrlLib} {url : ParsedUrl} {raw : String}

def normalPath (path : String) : String :=
  .ofList <| normalize path.toList

-- The URL whose text is the canonical form.
def bare (lib : UrlLib) (url : ParsedUrl) : ParsedUrl :=
  normalizeQuery lib url.removeFragment.removeUserinfo

def settlePath (lib : UrlLib) (url : ParsedUrl) : ParsedUrl :=
  if normalPath url.path ≠ url.path then url.setPath lib (normalPath url.path) else url

def settle (lib : UrlLib) (url : ParsedUrl) : ParsedUrl :=
  settlePath lib <| fillPath lib <| bare lib url

theorem normalizePath_eq : normalizePath lib url = .ok (settlePath lib url) := by
  unfold normalizePath
  rw [PercentEncoding.normalizePercentEncoding_eq]
  rfl

-- The normalization is never aborted.
theorem canonicalize_eq :
    canonicalize lib raw = .ok (lib.parse (Text.trim raw) |>.map fun url => lib.text (settle lib url)) := by
  unfold canonicalize
  cases lib.parse (Text.trim raw)
  case none     => rfl
  case some url => simp only [normalizePath_eq]; rfl

end UrlNorm

namespace UrlLib

variable (lib : UrlLib)

def IsUrl (url : ParsedUrl) : Prop :=
  ∃ raw, lib.parse raw = some url

-- What the library promises. The first four are about reading again what has been written.
structure Lawful : Prop where
  reads  : ∀ u, lib.IsUrl u → lib.parse (Text.trim (lib.text u)) = some u
  bare   : ∀ u, lib.IsUrl u → lib.IsUrl (UrlNorm.bare lib u)
  fill   : ∀ u, lib.IsUrl u → lib.IsUrl (UrlNorm.fillPath lib u)
  settle : ∀ u, lib.IsUrl u → lib.IsUrl (UrlNorm.settlePath lib u)
  strips : ∀ u, lib.IsUrl u → u.stripTrailingSpaces = u
  form   : ∀ u, lib.IsUrl u → UrlNorm.keptPairs lib u ≠ [] →
    lib.formParse (lib.formSerialize <| UrlNorm.keptPairs lib u) = UrlNorm.keptPairs lib u
  root   : ∀ scheme cannotBeABase, lib.parsePath scheme cannotBeABase "/" =
    if cannotBeABase then "%2F" else "/"
  -- A path stays a path, and its escapes are copied.
  filled : ∀ u, lib.IsUrl u → u.path ≠ "" →
    lib.parsePath u.scheme u.cannotBeABase (UrlNorm.normalPath u.path) ≠ ""
  copies : ∀ u, lib.IsUrl u → ∀ s ∈ (lib.parsePath u.scheme u.cannotBeABase
    (UrlNorm.normalPath u.path)).toList.splitOn '/', '%' ∈ s →
      ∃ s' ∈ (UrlNorm.normalPath u.path).toList.splitOn '/', s <:+: s'

end UrlLib
