import OsintCore.Objects.Utf8

namespace UrlTail

def punctuation : List Char :=
  ['.', ',', ';', ':', '!', '?', '"', '\'', '，', '。', '、', '；', '：']

-- The last character is taken off. A closing bracket goes only if more brackets are closed than opened.
def strip (front : List Char) (tail : Char) : Bool :=
  if tail ∈ punctuation then
    true
  else if tail = ')' then
    front.count '(' < front.count ')'
  else if tail = ']' then
    front.count '[' < front.count ']'
  else
    false

def noTail : Panic where
  message := "end > 0"

-- The loop of `trim_url_tail`, whose state is a byte index.
def trimFrom (raw : String) (stop : Nat) : Except Panic String :=
  if stop = 0 then
    Text.sliceTo raw stop
  else do
    let front ← Text.sliceTo raw stop
    match front.toList.getLast? with
    | none      => .error noTail
    | some tail =>
      if strip front.toList tail then trimFrom raw (stop - tail.utf8Size) else Text.sliceTo raw stop
termination_by stop
decreasing_by
  have := tail.utf8Size_pos
  omega

def trimUrlTail (raw : String) : Except Panic String :=
  trimFrom raw (Text.byteLen raw.toList)

end UrlTail
