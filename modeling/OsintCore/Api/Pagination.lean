import OsintCore.Objects.Text
import OsintCore.Storage.Store
import OsintCore.Table.Paging

namespace Uuid

def hexChar (n : Nat) : Char :=
  if n < 10 then .ofNat (n + 48) else .ofNat (n + 87)

def hexValue (c : Char) : Option Nat :=
  if '0' ≤ c ∧ c ≤ '9' then some (c.toNat - 48)
  else if 'a' ≤ c ∧ c ≤ 'f' then some (c.toNat - 87)
  else if 'A' ≤ c ∧ c ≤ 'F' then some (c.toNat - 55)
  else none

-- The last `k` hexadecimal digits.
def hexDigits : Nat → Nat → List Char
  | 0, _     => []
  | k + 1, n => hexDigits k (n / 16) ++ [hexChar (n % 16)]

-- The groups have 8, 4, 4, 4 and 12 digits.
def toText (id : Uuid) : String :=
  let digits := hexDigits 32 id
  .ofList <| digits.take 8 ++ '-' :: (digits.drop 8).take 4 ++ '-' :: (digits.drop 12).take 4 ++
    '-' :: (digits.drop 16).take 4 ++ '-' :: digits.drop 20

def parseSimple (l : List Char) : Option Uuid :=
  if l.length = 32 then l.foldlM (fun n c => (16 * n + ·) <$> hexValue c) 0 else none

def parseHyphenated (l : List Char) : Option Uuid :=
  if l.length = 36 ∧ ∀ i ∈ [8, 13, 18, 23], l[i]? = '-' then
    parseSimple <| l.take 8 ++ (l.drop 9).take 4 ++ (l.drop 14).take 4 ++ (l.drop 19).take 4 ++
      l.drop 24
  else
    none

-- The digits on their own, or with hyphens, in braces or behind the prefix of a URN if need be.
def parseStr (raw : String) : Option Uuid :=
  let l := raw.toList
  if l.length = 32 then parseSimple l
  else if l.length = 36 then parseHyphenated l
  else if l.length = 38 ∧ l.head? = some '\x7b' ∧ l.getLast? = some '\x7d' then
    parseHyphenated (l.drop 1).dropLast
  else if l.length = 45 ∧ l.take 9 = "urn:uuid:".toList then parseHyphenated (l.drop 9)
  else none

end Uuid

-- The two decoders which are tried on a cursor.
structure Base64 where
  urlSafeNoPad : String → Option ByteArray
  urlSafe      : String → Option ByteArray

inductive ApiError
  | badRequest (message : String)
  deriving DecidableEq, Repr

def decodeCursor (base64 : Base64) (raw : String) : Except ApiError Uuid :=
  match Uuid.parseStr raw with
  | some id => .ok id
  | none    =>
    match base64.urlSafeNoPad raw <|> base64.urlSafe raw with
    | none       => .error <| .badRequest <|
      "cursor `" ++ raw ++ "` 不是 UUID 也不是 base64url。請用上一頁回傳的 next_cursor，不要手改"
    | some bytes =>
      match String.fromUTF8? bytes with
      | none      => .error <| .badRequest
        "cursor 解碼後不是 UTF-8。請用 API 回傳的 next_cursor"
      | some text =>
        match Uuid.parseStr (Text.trim text) with
        | none    => .error <| .badRequest <|
          "cursor 解碼後 `" ++ text ++ "` 不是 UUID。請用 API 回傳的 next_cursor"
        | some id => .ok id

structure Pagination where
  cursor : Option String
  limit  : Option Nat

def Pagination.defaultLimit : Nat := 20
def Pagination.maxLimit : Nat := 100

def Pagination.decode (base64 : Base64) (p : Pagination) : Except ApiError (Option Uuid × Nat) :=
  let limit := max 1 (min (p.limit.getD defaultLimit) maxLimit)
  match p.cursor with
  | none     => .ok (none, limit)
  | some raw =>
    if raw = "" then .ok (none, limit) else do
    let id ← decodeCursor base64 raw
    return (some id, limit)

structure CursorPage (α : Type) where
  items      : List α
  nextCursor : Option String

-- The length is cast to 32 bits.
def CursorPage.fromItems {α : Type} (items : List α) (limit : Nat) (idOf : α → Uuid) :
    CursorPage α where
  items      := items
  nextCursor :=
    if limit ≤ items.length % 2 ^ 32 then items.getLast?.map fun item => Uuid.toText (idOf item)
    else none

section

variable {α : Type} [Keyed α Uuid]

-- A handler which lists the rows of a table.
def listHandler (base64 : Base64) (t : Table α) (filter : α → Bool) (p : Pagination) :
    Except ApiError (CursorPage α) := do
  let (after, limit) ← p.decode base64
  return .fromItems (t.page filter after (Store.clampLimit limit)) limit Keyed.key

-- What a client gets who goes on with `next_cursor` until there is none.
def followCursors (base64 : Base64) (tables : Nat → Table α) (filter : α → Bool)
    (limit : Option Nat) : Nat → Nat → Option String → Option (Except ApiError (List α))
  | 0, _, _              => none
  | fuel + 1, k, cursor =>
    match listHandler base64 (tables k) filter { cursor, limit } with
    | .error e => some (.error e)
    | .ok page =>
      match page.nextCursor with
      | none      => some (.ok page.items)
      | some next =>
        (Except.map (page.items ++ ·)) <$>
          followCursors base64 tables filter limit fuel (k + 1) (some next)

end
