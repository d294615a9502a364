import OsintCore.Objects.Utf8

namespace PercentEncoding

-- `char::to_digit` of radix 16
def toDigit16 (c : Char) : Option Nat :=
  let n := c.toNat
  if 48 ≤ n ∧ n ≤ 57 then
    some (n - 48)
  else if 65 ≤ n ∧ n ≤ 70 then
    some (n - 55)
  else if 97 ≤ n ∧ n ≤ 102 then
    some (n - 87)
  else
    none

def upperDigit (d : Nat) : Char :=
  .ofNat <| if d < 10 then 48 + d else 55 + d

def isUnreserved (byte : Nat) : Bool :=
  let c := Char.ofNat byte
  c.isAlphanum || c = '-' || c = '.' || c = '_' || c = '~'

-- What is written for an escape.
def normalEscape (value : Nat) : List Char :=
  if isUnreserved value then
    [.ofNat value]
  else
    ['%', upperDigit (value / 16), upperDigit (value % 16)]

def digitAt (bytes : List UInt8) (i : Nat) : Option Nat := do
  let byte ← bytes[i]?
  toDigit16 (.ofNat byte.toNat)

def escapeAt (bytes : List UInt8) (i : Nat) : Option Nat :=
  if bytes[i]? = some 37 then do
    let hi ← digitAt bytes (i + 1)
    let lo ← digitAt bytes (i + 2)
    return hi * 16 + lo
  else
    none

-- The loop goes over the bytes. Where there is no escape, it takes the next character of a slice.
def normalizeFrom (path : String) (i : Nat) (out : List Char) : Except Panic (List Char) :=
  if i < (Text.asBytes path).length then
    match escapeAt (Text.asBytes path) i with
    | some value => normalizeFrom path (i + 3) (out ++ normalEscape value)
    | none       => do
      let rest ← Text.sliceFrom path i
      let ch := rest.toList.head?.getD '\ufffd'
      normalizeFrom path (i + ch.utf8Size) (out ++ [ch])
  else
    return out
termination_by (Text.asBytes path).length - i
decreasing_by
  case _ => omega
  case _ =>
    have := Char.utf8Size_pos (rest.toList.head?.getD '\ufffd')
    omega

def normalizePercentEncoding (path : String) : Except Panic String :=
  String.ofList <$> normalizeFrom path 0 []

end PercentEncoding
