import OsintCore.Query.Expr
import OsintCore.Objects.Text

namespace Query

def maxQueryChars := 1024
def maxTokens     := 64
def maxDepth      := 8

inductive QueryParseError
  | tooLong (actual : Nat)
  | tooManyTokens (actual : Nat)
  | tooDeep
  | unterminatedQuote
  | unexpectedCloseParen
  | missingCloseParen
  | danglingOperator (operator : String)
  | leadingOperator (operator : String)
  | emptyGroup
  | emptyPhrase
  deriving DecidableEq, Repr

inductive Token
  | word (text : String)
  | phrase (text : String)
  | and
  | or
  | not
  | «open»
  | close
  deriving DecidableEq, Repr

namespace Token

def operatorName : Token → Option String
  | and => "AND"
  | or  => "OR"
  | not => "NOT"
  | _   => none

def ofWord (word : String) : Token :=
  if      word = "AND" then and
  else if word = "OR"  then or
  else if word = "NOT" then not
  else .word word

end Token

def isDelimiter (c : Char) : Bool :=
  Text.isWhitespace c || c = '(' || c = ')' || c = '"'

abbrev Unread {α : Type} (l : List α) := { rest : List α // rest.length ≤ l.length }

abbrev Rest {α : Type} (l : List α) := { rest : List α // rest.length < l.length }

-- One turn of the loop in `tokenize`. The first character has been removed from the input.
def lexeme (c : Char) (cs : List Char) : Except QueryParseError (Option Token × Unread cs) :=
  if Text.isWhitespace c then .ok (none, ⟨cs, le_rfl⟩)
  else if c = '(' then .ok (some .open, ⟨cs, le_rfl⟩)
  else if c = ')' then .ok (some .close, ⟨cs, le_rfl⟩)
  else if c = '"' then
    if '"' ∉ cs then .error .unterminatedQuote
    else
      let phrase := Text.trim <| .ofList <| cs.takeWhile (· ≠ '"')
      if phrase = "" then .error .emptyPhrase
      else .ok (some (.phrase phrase), ⟨(cs.dropWhile (· ≠ '"')).tail, by
        have := (cs.dropWhile_sublist (· ≠ '"')).length_le
        simp only [List.length_tail]
        omega⟩)
  else
    .ok (some <| .ofWord <| .ofList <| c :: cs.takeWhile (!isDelimiter ·),
      ⟨cs.dropWhile (!isDelimiter ·), (cs.dropWhile_sublist _).length_le⟩)

def scan (chars : List Char) (tokens : List Token) : Except QueryParseError (List Token) :=
  match chars with
  | [] => .ok tokens
  | c :: cs =>
    match lexeme c cs with
    | .error e => .error e
    | .ok (token, ⟨rest, _⟩) =>
      let tokens := tokens ++ token.toList
      if tokens.length > maxTokens then .error (.tooManyTokens tokens.length)
      else scan rest tokens
termination_by chars.length
decreasing_by simp only [List.length_cons]; omega

def tokenize (input : String) : Except QueryParseError (List Token) :=
  scan input.toList []

-- A parser leaves less than it was given, so the recursion on what is unread ends.
abbrev Parsed (ts : List Token) :=
  Except QueryParseError (QueryExpr × Rest ts)

-- Whether a condition can not start here.
def isDangling : List Token → Bool
  | [] | .close :: _ => true
  | _                => false

-- Whether the next condition belongs to the sequence without an `AND` in front of it.
def startsCondition : List Token → Bool
  | .word _ :: _ | .phrase _ :: _ | .open :: _ | .not :: _ => true
  | _                                                      => false

def leadingOperator (ts : List Token) : Option String :=
  ts.head? >>= Token.operatorName |>.filter (· ≠ "NOT")

def orOf : List QueryExpr → QueryExpr
  | [part] => part
  | parts  => .or parts

def andOf : List QueryExpr → QueryExpr
  | [part] => part
  | parts  => .and parts

mutual

-- `or := and (OR and)*`
def parseOr (depth : Nat) (ts : List Token) : Parsed ts :=
  if depth > maxDepth then .error .tooDeep
  else
    match leadingOperator ts with
    | some name => .error (.leadingOperator name)
    | none => do
      let (part, ⟨rest, h⟩)   ← parseAnd depth ts
      let (parts, ⟨rest', _⟩) ← parseOrTail depth rest
      return (orOf (part :: parts), ⟨rest', by omega⟩)
termination_by 6 * ts.length + 6

-- The loop in `parse_or`.
def parseOrTail (depth : Nat) (ts : List Token) :
    Except QueryParseError (List QueryExpr × Unread ts) :=
  match ts with
  | .or :: ts =>
    if isDangling ts then .error (.danglingOperator "OR")
    else do
      let (part, ⟨rest, h⟩)   ← parseAnd depth ts
      let (parts, ⟨rest', _⟩) ← parseOrTail depth rest
      return (part :: parts, ⟨rest', by simp only [List.length_cons]; omega⟩)
  | ts => .ok ([], ⟨ts, le_rfl⟩)
termination_by 6 * ts.length
decreasing_by all_goals simp only [List.length_cons]; omega

-- `and := unary (AND? unary)*`
def parseAnd (depth : Nat) (ts : List Token) : Parsed ts := do
  let (part, ⟨rest, h⟩)   ← parseUnary depth ts
  let (parts, ⟨rest', _⟩) ← parseAndTail depth rest
  return (andOf (part :: parts), ⟨rest', by omega⟩)
termination_by 6 * ts.length + 5

-- The loop in `parse_and`.
def parseAndTail (depth : Nat) (ts : List Token) :
    Except QueryParseError (List QueryExpr × Unread ts) :=
  match ts with
  | .and :: ts =>
    if isDangling ts then .error (.danglingOperator "AND")
    else do
      let (part, ⟨rest, h⟩)   ← parseUnary depth ts
      let (parts, ⟨rest', _⟩) ← parseAndTail depth rest
      return (part :: parts, ⟨rest', by simp only [List.length_cons]; omega⟩)
  | ts =>
    if startsCondition ts then do
      let (part, ⟨rest, h⟩)   ← parseUnary depth ts
      let (parts, ⟨rest', _⟩) ← parseAndTail depth rest
      return (part :: parts, ⟨rest', by omega⟩)
    else .ok ([], ⟨ts, le_rfl⟩)
termination_by 6 * ts.length + 4
decreasing_by all_goals (try simp only [List.length_cons]); omega

-- `unary := NOT unary | primary`
def parseUnary (depth : Nat) (ts : List Token) : Parsed ts :=
  match ts with
  | .not :: ts =>
    if isDangling ts then .error (.danglingOperator "NOT")
    else do
      let (inner, ⟨rest, _⟩) ← parseUnary (depth + 1) ts
      return (.not inner, ⟨rest, by simp only [List.length_cons]; omega⟩)
  | ts => parsePrimary depth ts
termination_by 6 * ts.length + 3
decreasing_by all_goals (try simp only [List.length_cons]); omega

-- `primary := '(' or ')' | PHRASE | WORD`
def parsePrimary (depth : Nat) (ts : List Token) : Parsed ts :=
  match ts with
  | .word text :: ts   => .ok (.term text, ⟨ts, by simp⟩)
  | .phrase text :: ts => .ok (.phrase text, ⟨ts, by simp⟩)
  | .open :: ts =>
    if ts.head? = some .close then .error .emptyGroup
    else do
      let (inner, ⟨rest, h⟩) ← parseOr (depth + 1) ts
      match rest, h with
      | .close :: rest, h => return (inner, ⟨rest, by simp only [List.length_cons] at *; omega⟩)
      | _, _              => .error .missingCloseParen
  | .close :: _ => .error .unexpectedCloseParen
  | token :: _  => .error (.leadingOperator (token.operatorName.getD "AND"))
  | []          => .error (.danglingOperator "AND")
termination_by 6 * ts.length + 2
decreasing_by simp only [List.length_cons]; omega

end

def parse (input : String) : Except QueryParseError (Option QueryExpr) :=
  if input.length > maxQueryChars then .error (.tooLong input.length)
  else do
    let tokens ← tokenize input
    if tokens = [] then return none
    else if tokens.length > maxTokens then .error (.tooManyTokens tokens.length)
    else do
      let (expr, ⟨rest, _⟩) ← parseOr 0 tokens
      if rest ≠ [] then .error .unexpectedCloseParen
      else return some expr

end Query
