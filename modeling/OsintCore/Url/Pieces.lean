import OsintCore.Url.PercentEncoding

-- A text read as characters and percent escapes.
namespace PercentEncoding

inductive Piece
  | plain (c : Char)
  | escape (h l : Char)
  deriving DecidableEq, Repr

-- The byte which two digits spell.
def valueOf (h l : Char) : Option Nat := do
  let hi ← toDigit16 h
  let lo ← toDigit16 l
  return hi * 16 + lo

namespace Piece

def normal : Piece → List Char
  | plain c    => [c]
  | escape h l => (valueOf h l).elim ['%', h, l] normalEscape

end Piece

def IsEscape (c h l : Char) : Prop :=
  c = '%' ∧ (valueOf h l).isSome

instance {c h l : Char} : Decidable (IsEscape c h l) :=
  inferInstanceAs (Decidable (_ ∧ _))

-- The escapes do not overlap, as the percent sign is no digit.
def pieces : List Char → List Piece
  | c :: h :: l :: t =>
    if IsEscape c h l then .escape h l :: pieces t else .plain c :: pieces (h :: l :: t)
  | c :: t           => .plain c :: pieces t
  | []               => []

def normalize (t : List Char) : List Char :=
  (pieces t).flatMap Piece.normal

-- The digits are capital ones, and the byte needs the escape.
def Canonical (h l : Char) : Prop :=
  ∀ v ∈ valueOf h l, normalEscape v = ['%', h, l]

instance {h l : Char} : Decidable (Canonical h l) :=
  inferInstanceAs (Decidable (∀ v ∈ valueOf h l, _))

-- Behind a percent sign which belongs to no escape, no other escapes are decoded to digits which
-- would make one of it, unless nothing is left to do with the new escape.
def Clean (t : List Char) : Prop :=
  ∀ u v, [.plain '%', u, v] <:+: pieces t → ∀ h l, u.normal = [h] → v.normal = [l] → Canonical h l

-- Every escape is canonical.
def Settled (t : List Char) : Prop :=
  ∀ h l, ['%', h, l] <:+: t → Canonical h l

end PercentEncoding
