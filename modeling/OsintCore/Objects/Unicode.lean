import OsintCore.Objects.Text

-- The properties of characters are a parameter: `Alphabetic` or one of the numeric categories,
-- `Cased`, `Case_Ignorable`, and the lowercase mapping where it does not depend on the context.
structure Unicode where
  isAlphanumeric  : Char → Bool
  isCased         : Char → Bool
  isCaseIgnorable : Char → Bool
  lower           : Char → List Char

namespace Unicode

variable (u : Unicode)

def caseIgnorableThenCased (l : List Char) : Bool :=
  match l.dropWhile u.isCaseIgnorable with
  | []     => false
  | c :: _ => u.isCased c

-- `before` is read backwards.
def mapUppercaseSigma (before after : List Char) : Char :=
  if u.caseIgnorableThenCased before ∧ ¬u.caseIgnorableThenCased after then 'ς' else 'σ'

def lowercaseFrom : (before : List Char) → List Char → List Char
  | _, []          => []
  | before, c :: l =>
    (if c = 'Σ' then [u.mapUppercaseSigma before l] else u.lower c) ++ lowercaseFrom (c :: before) l

-- `str::to_lowercase`
def toLowercase (s : String) : String :=
  .ofList <| u.lowercaseFrom [] s.toList

-- What the properties say about the letters of ASCII.
structure Lawful : Prop where
  isAlphanumeric  : ∀ c, c.isAlpha → u.isAlphanumeric c
  isCased         : ∀ c, c.isAlpha → u.isCased c
  isCaseIgnorable : ∀ c, c.isAlpha → ¬u.isCaseIgnorable c
  lower           : ∀ c, c.isAlpha → u.lower c = [c.toLower]

end Unicode

-- The characters of ASCII

def Sample.ascii : Unicode where
  isAlphanumeric  := Char.isAlphanum
  isCased         := Char.isAlpha
  isCaseIgnorable := fun c => c.toNat ∈ [39, 46, 58, 94, 96]
  lower           := fun c => [c.toLower]
