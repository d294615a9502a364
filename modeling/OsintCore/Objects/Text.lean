import Mathlib

-- The operations of the standard library on strings which the services use, on their characters.
namespace Text

-- The Unicode property `White_Space`.
def isWhitespace (c : Char) : Bool :=
  let n := c.toNat
  9 ≤ n ∧ n ≤ 13 ∨ n = 0x20 ∨ n = 0x85 ∨ n = 0xA0 ∨ n = 0x1680 ∨ 0x2000 ≤ n ∧ n ≤ 0x200A ∨
    n = 0x2028 ∨ n = 0x2029 ∨ n = 0x202F ∨ n = 0x205F ∨ n = 0x3000

def trim (s : String) : String :=
  .ofList <| s.toList.dropWhile isWhitespace |>.reverse.dropWhile isWhitespace |>.reverse

def trimEndMatches (c : Char) (s : String) : String :=
  .ofList <| s.toList.reverse.dropWhile (· = c) |>.reverse

def startsWith (s start : String) : Bool :=
  start.toList.isPrefixOf s.toList

def endsWith (s suffix : String) : Bool :=
  suffix.toList.isSuffixOf s.toList

def contains (s part : String) : Bool :=
  s.toList.tails.any part.toList.isPrefixOf

def toAsciiLowercase (s : String) : String :=
  .ofList <| s.toList.map Char.toLower

def toAsciiUppercase (s : String) : String :=
  .ofList <| s.toList.map Char.toUpper

def eqIgnoreAsciiCase (s t : String) : Bool :=
  toAsciiLowercase s = toAsciiLowercase t

-- What stands behind the first occurrence of the separator.
def afterFirst (separator : Char) (s : String) : Option String :=
  match s.toList.dropWhile (· ≠ separator) with
  | []     => none
  | _ :: l => some (.ofList l)

-- The longest prefix of the characters which has at most the given number of bytes.
def takeBytes : Nat → List Char → List Char
  | _, []     => []
  | n, c :: l => if c.utf8Size ≤ n then c :: takeBytes (n - c.utf8Size) l else []

def truncateOnCharBoundary (text : String) (maxBytes : Nat) : String :=
  .ofList <| takeBytes maxBytes text.toList

end Text
