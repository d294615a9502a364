import OsintCore.Query.OpenSearch

-- What the query language of the search engine means on a document, as far as the adapter uses it.
-- Any assignment of truth values to the leaves is allowed.

inductive MatchKind
  | allWords | phrase
  deriving DecidableEq, Repr

structure Leaves (D : Type) where
  multiMatch : D → List String → MatchKind → String → Bool
  term       : D → String → String → Bool
  range      : D → String → Option String → Option String → Bool
  hasField   : D → String → Bool
  nested     : D → String → List D

namespace Leaves

variable {D : Type} (l : Leaves D) (d : D)

def matchKind (args : List (String × Json)) : Option MatchKind :=
  match args.lookup "type", args.lookup "operator" with
  | some (.string "best_fields"), some (.string "and") => some .allWords
  | some (.string "phrase"), _                         => some .phrase
  | _, _                                               => none

def fieldNames (args : List (String × Json)) : List String :=
  (args.lookup "fields" >>= Json.asArray).getD [] |>.filterMap Json.asStr

def text (args : List (String × Json)) (name : String) : Option String :=
  args.lookup name >>= Json.asStr

def needsOne (args : List (String × Json)) : Bool :=
  match args.lookup "minimum_should_match" with
  | some (.number 1) => true
  | _                => false

def leaf (name : String) (args : List (String × Json)) : Bool :=
  if name = "match_all" then true
  else if name = "multi_match" then
    match matchKind args, text args "query" with
    | some kind, some query => l.multiMatch d (fieldNames args) kind query
    | _, _                  => false
  else if name = "exists" then
    (text args "field").any (l.hasField d)
  else
    match args with
    | [(field, .string value)]  => name = "term" ∧ l.term d field value
    | [(field, .object bounds)] =>
      name = "range" ∧ l.range d field (text bounds "gte") (text bounds "lte")
    | _ => false

mutual

def holds (d : D) : Json → Bool
  | .object [(name, .object args)] =>
    if name = "bool" then clauses d (needsOne args) args
    else if name = "nested" then inner ((text args "path").elim [] (l.nested d)) args
    else l.leaf d name args
  | _ => false

-- The clauses of a `bool` query. A `should` decides only if a minimum is asked for.
def clauses (d : D) (minimum : Bool) : List (String × Json) → Bool
  | [] => true
  | (name, .array queries) :: args =>
    (if      name = "must" ∨ name = "filter" then all d queries
     else if name = "must_not"               then !any d queries
     else if name = "should"                 then !minimum || any d queries
     else false) && clauses d minimum args
  | (name, _) :: args => name = "minimum_should_match" && clauses d minimum args

def all (d : D) : List Json → Bool
  | []      => true
  | q :: qs => holds d q && all d qs

def any (d : D) : List Json → Bool
  | []      => false
  | q :: qs => holds d q || any d qs

-- The query of a `nested` query, on one of the inner objects.
def inner (objects : List D) : List (String × Json) → Bool
  | [] => false
  | (name, q) :: args => if name = "query" then objects.any (holds · q) else inner objects args

end

end Leaves

-- The query language with the texts of all `multi_match` leaves removed.

namespace Json

def withoutQuery : Json → Json
  | object args =>
    object <| args.map fun
      | (name, string s) => (name, string <| if name = "query" then "" else s)
      | arg              => arg
  | j => j

mutual

def blank : Json → Json
  | array values  => array (blankAll values)
  | object fields => object (blankFields fields)
  | j             => j

def blankAll : List Json → List Json
  | []      => []
  | j :: js => blank j :: blankAll js

def blankFields : List (String × Json) → List (String × Json)
  | [] => []
  | (name, j) :: fields =>
    (name, if name = "multi_match" then withoutQuery j else blank j) :: blankFields fields

end

end Json

-- What the expression and the filters ask for.

namespace QueryExpr

variable (leaf : MatchKind → String → Bool)

mutual

def eval : QueryExpr → Bool
  | term text   => leaf .allWords text
  | phrase text => leaf .phrase text
  | and parts   => evalAll parts
  | or parts    => evalAny parts
  | not e       => !eval e

def evalAll : List QueryExpr → Bool
  | []      => true
  | e :: es => eval e && evalAll es

def evalAny : List QueryExpr → Bool
  | []      => false
  | e :: es => eval e || evalAny es

end

-- The expression with all its texts removed.
mutual

def shape : QueryExpr → QueryExpr
  | term _    => term ""
  | phrase _  => phrase ""
  | and parts => and (shapes parts)
  | or parts  => or (shapes parts)
  | not e     => not (shape e)

def shapes : List QueryExpr → List QueryExpr
  | []      => []
  | e :: es => shape e :: shapes es

end

-- The number of operators above the deepest condition.
mutual

def height : QueryExpr → Nat
  | term _    => 0
  | phrase _  => 0
  | and parts => heights parts
  | or parts  => heights parts
  | not e     => e.height + 1

def heights : List QueryExpr → Nat
  | []      => 0
  | e :: es => max (e.height + 1) (heights es)

end

end QueryExpr

def SearchFilter.eval {D : Type} (rfc3339 : Timestamp → String) (l : Leaves D) (d : D) :
    SearchFilter → Bool
  | term field value               => l.term d field value
  | dateRange field «from» «to»    => l.range d field («from».map rfc3339) («to».map rfc3339)
  | nested path terms              =>
    (l.nested d path).any fun o => terms.all fun (field, value) => l.term o field value
  | missing field                  => !l.hasField d field
