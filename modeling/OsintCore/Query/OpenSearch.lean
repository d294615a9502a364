import OsintCore.Query.Expr

namespace OpenSearch

def maxSize      := 200
def maxExprDepth := 8

-- `StorageError::Configuration`
structure ConfigurationError where
  message : String
  deriving DecidableEq, Repr

def noFields : ConfigurationError where
  message := "StructuredSearch 有 expression 但沒有 fields。" ++
    "沒有欄位清單就只能讓 OpenSearch 自己挑欄位，行為不可預期"

def nestingError : ConfigurationError where
  message := "查詢條件巢狀超過 " ++ toString maxExprDepth ++
    " 層。請把括號拆成多次查詢，或簡化條件"

variable {β : Type} [Boost β]

def fieldList (fields : List (SearchField β)) : List String :=
  fields.map fun f =>
    if Boost.isOne f.boost then f.name else f.name ++ "^" ++ Boost.display f.boost

def bool (clauses : List (String × Json)) : Json :=
  .object [("bool", .object clauses)]

def matchAll : Json :=
  .object [("match_all", .object [])]

def multiMatch (text : String) (fields : List (SearchField β)) (kind : List (String × Json)) :
    Json :=
  .object [("multi_match", .object <|
    ("query", .string text) :: ("fields", .array <| (fieldList fields).map .string) :: kind)]

mutual

def translateExpr (fields : List (SearchField β)) (expr : QueryExpr) (depth : Nat) :
    Except ConfigurationError Json :=
  if depth > maxExprDepth then .error nestingError
  else
    match expr with
    | .term text =>
      .ok <| multiMatch text fields [("type", .string "best_fields"), ("operator", .string "and")]
    | .phrase text => .ok <| multiMatch text fields [("type", .string "phrase")]
    | .and parts => do
      let clauses ← translateAll fields parts depth
      return bool [("must", .array clauses)]
    | .or parts => do
      let clauses ← translateAll fields parts depth
      return bool [("should", .array clauses), ("minimum_should_match", .number 1)]
    | .not inner => do
      let clause ← translateExpr fields inner (depth + 1)
      return bool [("must", .array [matchAll]), ("must_not", .array [clause])]

def translateAll (fields : List (SearchField β)) (parts : List QueryExpr) (depth : Nat) :
    Except ConfigurationError (List Json) :=
  match parts with
  | [] => return []
  | part :: parts => do
    let clause ← translateExpr fields part (depth + 1)
    let clauses ← translateAll fields parts depth
    return clause :: clauses

end

def term (field value : String) : Json :=
  .object [("term", .object [(field, .string value)])]

variable (rfc3339 : Timestamp → String)

def translateFilter : SearchFilter → Json
  | .term field value => term field value
  | .dateRange field «from» «to» =>
    let gte := «from».toList.map fun t => ("gte", .string <| rfc3339 t)
    let lte := «to».toList.map fun t => ("lte", .string <| rfc3339 t)
    .object [("range", .object [(field, .object (gte ++ lte))])]
  | .nested path terms =>
    let must := terms.map fun (field, value) => term field value
    .object [("nested", .object [("path", .string path), ("query", bool [("must", .array must)])])]
  | .missing field =>
    bool [("must_not", .array [.object [("exists", .object [("field", .string field)])]])]

def mustClauses (query : StructuredSearch β) :
    Except ConfigurationError (List (String × Json)) :=
  match query.expression with
  | none => .ok []
  | some expr =>
    if query.fields.isEmpty then .error noFields
    else (translateExpr query.fields expr 0).map fun clause => [("must", .array [clause])]

def boolClauses (query : StructuredSearch β) (must : List (String × Json)) :
    List (String × Json) :=
  let filters := query.filters.map (translateFilter rfc3339)
  let clauses := must ++ if filters.isEmpty then [] else [("filter", .array filters)]
  if clauses.isEmpty then [("must", .array [matchAll])] else clauses

def sortEntry (s : SortField) : Json :=
  .object [(s.field, .object [("order", .string <| if s.ascending then "asc" else "desc")])]

def highlight (fields : List String) : Json :=
  .object [
    ("require_field_match", .bool false),
    ("pre_tags", .array [.string "<em>"]),
    ("post_tags", .array [.string "</em>"]),
    ("fields", .object <| fields.foldl (fun map field => Json.insert map field <| .object
      [("fragment_size", .number 160), ("number_of_fragments", .number 1)]) [])]

def bodyOf (query : StructuredSearch β) (clauses : List (String × Json)) : Json :=
  let sort := if query.sort.isEmpty then [] else [("sort", .array <| query.sort.map sortEntry)]
  let searchAfter :=
    match query.searchAfter with
    | none | some [] => []
    | some after     => [("search_after", .array after)]
  let highlight :=
    if query.highlightFields.isEmpty then []
    else [("highlight", highlight query.highlightFields)]
  .object <|
    ("query", bool clauses) ::
    ("size", .number <| max 1 (min query.size maxSize)) ::
    ("track_total_hits", .bool true) :: (sort ++ searchAfter ++ highlight)

def buildSearchBody (query : StructuredSearch β) : Except ConfigurationError Json :=
  (mustClauses query).map fun must => bodyOf query <| boolClauses rfc3339 query must

end OpenSearch
