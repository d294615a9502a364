import OsintCore.Objects.Basic

-- The condition on the texts of a document. It does not depend on the backend.
inductive QueryExpr
  | term (text : String)
  | phrase (text : String)
  | and (parts : List QueryExpr)
  | or (parts : List QueryExpr)
  | not (inner : QueryExpr)
  deriving BEq, Inhabited

-- What the adapter needs of a weight, which is a floating point number in the source.
class Boost (β : Type) where
  isOne   : β → Bool
  display : β → String

structure SearchField (β : Type) where
  name  : String
  boost : β

inductive SearchFilter
  | term (field value : String)
  | dateRange (field : String) («from» «to» : Option Timestamp)
  | nested (path : String) (terms : List (String × String))
  | missing (field : String)

structure SortField where
  field     : String
  ascending : Bool

structure StructuredSearch (β : Type) where
  expression      : Option QueryExpr
  fields          : List (SearchField β)
  filters         : List SearchFilter
  size            : Nat
  searchAfter     : Option (List Json)
  sort            : List SortField
  highlightFields : List String
