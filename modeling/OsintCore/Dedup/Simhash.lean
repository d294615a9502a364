import OsintCore.Dedup.Service
import OsintCore.Objects.Unicode

-- The hash of a token is a parameter.
structure Simhash where
  unicode   : Unicode
  tokenHash : String → UInt64

namespace Simhash

variable (w : Simhash)

def minTokens : Nat := 16

def split (text : String) : List (List Char) :=
  text.toList.splitOnP (¬w.unicode.isAlphanumeric ·)

def tokenize (text : String) : List String :=
  w.split text |>.filter (1 < ·.length) |>.map fun t => w.unicode.toLowercase (.ofList t)

-- One signed accumulator for each bit. A text has less than 2⁶³ tokens, so none overflows.
abbrev Weights := Fin 64 → Int

-- `1u64 << bit`
def mask (bit : Fin 64) : UInt64 :=
  1 <<< UInt64.ofNat bit

def addToken (weights : Weights) (token : String) : Weights :=
  let hash := w.tokenHash token
  fun bit => if hash &&& mask bit ≠ 0 then weights bit + 1 else weights bit - 1

def weightsOf (tokens : List String) : Weights :=
  tokens.foldl w.addToken fun _ => 0

def fingerprintOfTokens (tokens : List String) : Int64 :=
  let weights := w.weightsOf tokens
  let out := (List.finRange 64).foldl
    (fun out bit => if weights bit > 0 then out ||| mask bit else out) (0 : UInt64)
  out.toInt64

def fingerprint (text : String) : Option Int64 :=
  let tokens := w.tokenize text
  if tokens.length < minTokens then none else some (w.fingerprintOfTokens tokens)

end Simhash
