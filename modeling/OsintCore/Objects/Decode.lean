import OsintCore.Objects.Basic

-- How `serde` reads the types of the services from a JSON value.
namespace Json

-- An unsigned integer of the given width.
def decodeUnsigned (bits : Nat) : Json → Option Nat
  | number n => if 0 ≤ n ∧ n < 2 ^ bits then some n.toNat else none
  | _        => none

def decodeFloat : Json → Option ℚ
  | number n => some n
  | float x  => some x
  | _        => none

def decodeList {α : Type} (decode : Json → Option α) (j : Json) : Option (List α) :=
  j.asArray >>= List.mapM decode

-- A structure is read from an object, or from the array of its fields.
def asStruct (names : List String) : Json → Option (List (String × Json))
  | object fields => some fields
  | array values  => if values.length = names.length then some (names.zip values) else none
  | _             => none

def decodeField {α : Type} (fields : List (String × Json)) (name : String)
    (decode : Json → Option α) : Option α :=
  fields.lookup name >>= decode

end Json
