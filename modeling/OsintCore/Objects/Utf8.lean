import OsintCore.Control.Except
import OsintCore.Objects.Text

-- The encoding of texts in UTF-8, and the slices which are taken of them by byte indices.
namespace Text

def byteLen (l : List Char) : Nat :=
  l.map Char.utf8Size |>.sum

def encode (l : List Char) : List UInt8 :=
  l.flatMap String.utf8EncodeChar

-- `str::as_bytes`
def asBytes (s : String) : List UInt8 :=
  encode s.toList

-- What stands before and behind a byte index, if no character is cut by it.
def splitAtByte (n : Nat) : List Char → Option (List Char × List Char)
  | []     => if n = 0 then some ([], []) else none
  | c :: l =>
    if n = 0 then
      some ([], c :: l)
    else if c.utf8Size ≤ n then
      splitAtByte (n - c.utf8Size) l |>.map fun (p, q) => (c :: p, q)
    else
      none

-- `str::is_char_boundary`
def isCharBoundary (s : String) (n : Nat) : Bool :=
  (splitAtByte n s.toList).isSome

def notBoundary (n : Nat) : Panic where
  message := s!"byte index {n} is not a char boundary"

def sliceTo (s : String) (n : Nat) : Except Panic String :=
  match splitAtByte n s.toList with
  | some (p, _) => .ok (.ofList p)
  | none        => .error (notBoundary n)

def sliceFrom (s : String) (n : Nat) : Except Panic String :=
  match splitAtByte n s.toList with
  | some (_, q) => .ok (.ofList q)
  | none        => .error (notBoundary n)

end Text
