import OsintCore.Api.Pagination
import OsintCore.Connector.RunState
import OsintCore.Normalizer.Store
import OsintCore.Objects.Utf8

abbrev SeedId      := Uuid
abbrev WorkspaceId := Uuid

namespace Resources

inductive SourceType
  | rss | atom | staticWeb | restApi | manualUpload | jsonImport | csvImport | stixImport
  deriving DecidableEq, Repr

def SourceType.asStr : SourceType → String
  | rss          => "rss"
  | atom         => "atom"
  | staticWeb    => "static_web"
  | restApi      => "rest_api"
  | manualUpload => "manual_upload"
  | jsonImport   => "json_import"
  | csvImport    => "csv_import"
  | stixImport   => "stix_import"

structure Source where
  id               : SourceId
  name             : String
  sourceType       : SourceType
  platform         : Option String
  baseUrl          : Option String
  description      : Option String
  language         : Option String
  country          : Option String
  enabled          : Bool
  collectionPolicy : Json
  createdAt        : Timestamp
  updatedAt        : Timestamp
  lastSeen         : Option Timestamp

inductive SeedType
  | keyword | topic | person | organization | account | channel | url | domain | ip | email
  | vulnerability | software | product | repository | hashtag | location
  deriving DecidableEq, Repr

def SeedType.asStr : SeedType → String
  | keyword       => "keyword"
  | topic         => "topic"
  | person        => "person"
  | organization  => "organization"
  | account       => "account"
  | channel       => "channel"
  | url           => "url"
  | domain        => "domain"
  | ip            => "ip"
  | email         => "email"
  | vulnerability => "vulnerability"
  | software      => "software"
  | product       => "product"
  | repository    => "repository"
  | hashtag       => "hashtag"
  | location      => "location"

inductive SeedOrigin
  | manual | connector | ai | graph | entity | externalImport | discovery
  deriving DecidableEq, Repr

def SeedOrigin.asStr : SeedOrigin → String
  | manual         => "manual"
  | connector      => "connector"
  | ai             => "ai"
  | graph          => "graph"
  | entity         => "entity"
  | externalImport => "external_import"
  | discovery      => "discovery"

structure Seed where
  id           : SeedId
  collectionId : Option CollectionId
  seedType     : SeedType
  value        : String
  entityId     : Option EntityId
  priority     : Int32
  confidence   : Confidence
  origin       : SeedOrigin
  status       : String
  depth        : Int32
  createdAt    : Timestamp

structure Collection where
  id          : CollectionId
  workspaceId : Option WorkspaceId
  name        : String
  description : Option String
  status      : String
  priority    : Int32
  createdAt   : Timestamp
  updatedAt   : Timestamp

instance : Keyed Source Uuid     := ⟨Source.id⟩
instance : Keyed Seed Uuid       := ⟨Seed.id⟩
instance : Keyed Collection Uuid := ⟨Collection.id⟩

@[simp]
theorem Source.key_eq (s : Source) : Keyed.key s = s.id :=
  rfl

@[simp]
theorem Seed.key_eq (s : Seed) : Keyed.key s = s.id :=
  rfl

@[simp]
theorem Collection.key_eq (c : Collection) : Keyed.key c = c.id :=
  rfl

structure ApiError where
  status  : Nat
  error   : String
  message : String
  deriving DecidableEq, Repr

namespace ApiError

def badRequest    : String → ApiError := .mk 400 "bad_request"
def forbidden     : String → ApiError := .mk 403 "forbidden"
def notFound      : String → ApiError := .mk 404 "not_found"
def conflict      : String → ApiError := .mk 409 "conflict"
def unprocessable : String → ApiError := .mk 422 "unprocessable"

def unavailable : ApiError :=
  .mk 503 "unavailable" "canonical store 目前無法讀寫。請確認 Postgres 在跑後重試"

-- The request itself is at fault.
def Rejected (e : ApiError) : Prop :=
  400 ≤ e.status ∧ e.status < 500

instance {e : ApiError} : Decidable e.Rejected :=
  inferInstanceAs (Decidable (_ ∧ _))

end ApiError

def quoted (s : String) : String :=
  "`" ++ s ++ "`"

-- The category `Cc` of Unicode.
def isControl (c : Char) : Bool :=
  c.toNat ≤ 0x1F ∨ 0x7F ≤ c.toNat ∧ c.toNat ≤ 0x9F

def validateText (field value : String) (max : Nat) : Except ApiError String :=
  let trimmed := Text.trim value
  if trimmed = "" then
    .error <| .badRequest <| quoted field ++ " 不可為空白。請填一個看得出用途的名稱"
  else if max < trimmed.length then
    .error <| .badRequest <| quoted field ++ " 超過 " ++ toString max ++ " 個字元。請縮短後重試"
  else if trimmed.toList.any isControl then
    .error <| .badRequest <| quoted field ++ " 不可含控制字元。請用一般文字"
  else
    .ok trimmed

def validateOptionalText (field : String) (value : Option String) (max : Nat) :
    Except ApiError (Option String) :=
  match value with
  | none     => .ok none
  | some raw => if Text.trim raw = "" then .ok none else some <$> validateText field raw max

-- A field for which a text stands in when it is missing.
def validateTextOr (field : String) (value : Option String) (max : Nat) (default : String) :
    Except ApiError String :=
  value.elim (.ok default) (validateText field · max)

namespace SecretRef

def looksLikeInlineSecret (value : String) : Bool :=
  let lower := Text.toAsciiLowercase value
  Text.contains lower "://" || Text.contains lower "password=" || Text.contains lower "token=" ||
    24 ≤ value.utf8ByteSize && !Text.contains value ":" && !Text.contains value "/"

-- What stands behind the scheme.
def behind (scheme value : String) : Option String :=
  if Text.startsWith value scheme then
    some <| Text.trim <| .ofList <| value.toList.drop scheme.length
  else
    none

-- `SecretRef::parse` and `as_str`; which of the errors it is makes no difference to the API.
def parse (value : String) : Option String :=
  let value := Text.trim value
  if value = "" ∨ looksLikeInlineSecret value then none
  else match behind "env:" value with
  | some name =>
    if name = "" ∨ name.toList.any Text.isWhitespace then none else some ("env:" ++ name)
  | none =>
    match behind "file:" value with
    | some path => if path = "" then none else some ("file:" ++ path)
    | none      =>
      match behind "store:" value with
      | some locator => if locator = "" then none else some ("store:" ++ locator)
      | none         => none

-- How the error about an unknown scheme shows the value.
def redactForError (value : String) : Except Panic String :=
  if Text.byteLen value.toList ≤ 12 then
    return "(已遮罩)"
  else do
    let start ← Text.sliceTo value 4
    return start ++ "…(已遮罩)"

end SecretRef

def maxSecretRef : Nat := 512

def validateSecretRef (field : String) (value : Option String) :
    Except ApiError (Option String) :=
  match value with
  | none     => .ok none
  | some raw =>
    let trimmed := Text.trim raw
    if trimmed = "" then .ok none
    else if maxSecretRef < trimmed.length then
      .error <| .badRequest <| quoted field ++ " 超過 " ++ toString maxSecretRef ++
        " 個字元。這個欄位只放密鑰的**位置**，不是密鑰本身"
    else match SecretRef.parse trimmed with
    | some parsed => .ok (some parsed)
    | none        =>
      .error <| .badRequest <| quoted field ++
        " 必須是 SecretRef，不能是明文密碼或連線字串（SPEC §6：禁止儲存明文 password/token）。" ++
        "請改成 `env:VAR_NAME`、`file:/path/to/secret` 或 `store:backend/path#key`"

inductive Role
  | viewer | operator | admin
  deriving DecidableEq, Repr

inductive Permission
  | read | write | admin
  deriving DecidableEq, Repr

namespace Role

def asStr : Role → String
  | viewer   => "viewer"
  | operator => "operator"
  | admin    => "admin"

def includes : Role → Role → Bool
  | admin, _           => true
  | operator, operator => true
  | operator, viewer   => true
  | viewer, viewer     => true
  | _, _               => false

def allows (r : Role) : Permission → Bool
  | .read  => true
  | .write => r.includes operator
  | .admin => r.includes admin

def require (r : Role) (p : Permission) : Except ApiError Unit :=
  if r.allows p then
    .ok ()
  else
    .error <| .forbidden <| "角色 " ++ quoted r.asStr ++ " 沒有 " ++ quoted (name p) ++
      " 權限。請改用 operator／admin，或請管理員調整角色"
where
  name : Permission → String
    | .read  => "read"
    | .write => "write"
    | .admin => "admin"

end Role

structure AuditEntry where
  id           : Uuid
  timestamp    : Timestamp
  actor        : String
  action       : String
  resourceType : String
  resourceId   : Option String
  outcome      : String
  ip           : Option String
  metadata     : Json

end Resources
