import OsintCore.Api.Pagination
import OsintCore.Resources.Basic

namespace Auth

open Resources (Role quoted)

inductive SecurityError
  | jwtSecretTooShort (len : Nat)
  | jwtEncode (message : String)
  | jwtInvalid (message : String)
  | malformedApiToken
  | tokenHash (message : String)
  | tokenNotFound (id : String)
  | tokenRevoked
  | tokenExpired
  | unauthenticated
  | forbidden (role permission : String)
  | audit (message : String)
  deriving DecidableEq

namespace SecurityError

def text : SecurityError → String
  | jwtSecretTooShort len     => "JWT secret 太短（" ++ toString len ++
    " bytes）。請提供至少 32 bytes 的隨機密鑰，例如用 openssl rand -base64 48"
  | jwtEncode message         => "JWT 簽發失敗：" ++ message
  | jwtInvalid _              => "JWT 無效或已過期。請重新登入或改用有效的 API token"
  | malformedApiToken         => "API token 格式不正確。預期 osint_<id>.<secret>，請確認複製完整"
  | tokenHash _               =>
    "API token 驗證失敗：雜湊運算錯誤。請回報此錯誤，不要重試同一把壞掉的 hash"
  | tokenNotFound id          => "找不到 API token " ++ quoted id ++ "。請確認 id 或重新發行"
  | tokenRevoked              => "API token 已撤銷。請改用新 token"
  | tokenExpired              => "API token 已過期。請用 POST /api/v1/tokens 重新發行一把"
  | unauthenticated           => "沒有通過認證。請在 Authorization 放 Bearer JWT 或 API token"
  | forbidden role permission => "角色 " ++ quoted role ++ " 沒有 " ++ quoted permission ++
    " 權限。請改用 operator／admin，或請管理員調整角色"
  | audit message             => "稽核寫入失敗：" ++ message

def unauthorized : String → Resources.ApiError := .mk 401 "unauthorized"
def internal     : String → Resources.ApiError := .mk 500 "internal"

-- The conversion `From<SecurityError>` of the API.
def toApiError (err : SecurityError) : Resources.ApiError :=
  match err with
  | unauthenticated | jwtInvalid _ | malformedApiToken | tokenRevoked | tokenExpired =>
    unauthorized err.text
  | forbidden _ _       => .forbidden err.text
  | tokenNotFound _     => .notFound err.text
  | jwtSecretTooShort _ => internal err.text
  | _                   => .unprocessable err.text

end SecurityError

structure ApiTokenRecord where
  id         : Uuid
  name       : String
  role       : Role
  secretHash : String
  createdBy  : Option String
  createdAt  : Timestamp
  expiresAt  : Option Timestamp
  lastUsedAt : Option Timestamp
  revokedAt  : Option Timestamp

instance : Keyed ApiTokenRecord Uuid where
  key := ApiTokenRecord.id

def ApiTokenRecord.ensureUsable (r : ApiTokenRecord) (now : Timestamp) : Except SecurityError Unit :=
  if r.revokedAt.isSome then .error .tokenRevoked
  else if r.expiresAt.any (· ≤ now) then .error .tokenExpired
  else .ok ()

structure PresentedToken where
  id     : Uuid
  secret : String
  deriving DecidableEq

def tokenPrefix : String := "osint_"

-- What stands before the first dot and behind it.
def splitDot : List Char → Option (List Char × List Char)
  | []     => none
  | c :: l =>
    if c = '.' then some ([], l)
    else splitDot l |>.map fun (front, back) => (c :: front, back)

def parsePresentedToken (raw : String) : Except SecurityError PresentedToken :=
  if ¬Text.startsWith raw tokenPrefix then .error .malformedApiToken
  else match splitDot (raw.toList.drop tokenPrefix.length) with
  | none                   => .error .malformedApiToken
  | some (idPart, secret) =>
    if secret = [] then .error .malformedApiToken
    else match Uuid.parseStr (.ofList idPart) with
    | none    => .error .malformedApiToken
    | some id => .ok { id, secret := .ofList secret }

inductive VerifyError
  | passwordInvalid
  | other (message : String)

-- The library which reads stored hashes and compares secrets with them.
structure Argon2 where
  PasswordHash   : Type
  new            : String → Except String PasswordHash
  verifyPassword : String → PasswordHash → Except VerifyError Unit

def verifySecret (lib : Argon2) (secret hash : String) : Except SecurityError Bool :=
  match lib.new hash with
  | .error err => .error <| .tokenHash <|
    "儲存的 token hash 不是合法 PHC 字串：" ++ err ++ "。請重新發行 token"
  | .ok parsed =>
    match lib.verifyPassword secret parsed with
    | .ok ()                  => .ok true
    | .error .passwordInvalid => .ok false
    | .error (.other message) => .error (.tokenHash message)

inductive AuthMethod
  | jwt | apiToken
  deriving DecidableEq

structure Principal where
  subject    : String
  role       : Role
  authMethod : AuthMethod
  deriving DecidableEq

-- One request: its two readings of the clock, what reading the tokens fails with if it does, and
-- whether the time of use is written.
structure Call where
  now        : Timestamp
  usedAt     : Timestamp
  storeError : Option SecurityError
  touched    : Bool

def invalidToken : Resources.ApiError :=
  SecurityError.unauthorized "API token 無效。請確認複製完整 token，或請管理者重新發行"

def touchLastUsed (s : Table ApiTokenRecord) (r : ApiTokenRecord) (at' : Timestamp) :
    Table ApiTokenRecord :=
  s.put { r with lastUsedAt := some at' }

def authenticateApiToken (lib : Argon2) (c : Call) (s : Table ApiTokenRecord) (token : String) :
    Except Resources.ApiError Principal × Table ApiTokenRecord :=
  match parsePresentedToken token with
  | .error err     => (.error err.toApiError, s)
  | .ok presented =>
    match c.storeError with
    | some err => (.error err.toApiError, s)
    | none     =>
      match s.get? presented.id with
      | none        => (.error invalidToken, s)
      | some record =>
        match record.ensureUsable c.now with
        | .error err => (.error err.toApiError, s)
        | .ok ()     =>
          match verifySecret lib presented.secret record.secretHash with
          | .error err => (.error err.toApiError, s)
          | .ok false  => (.error invalidToken, s)
          | .ok true   =>
            (.ok { subject    := "token:" ++ record.name
                   role       := record.role
                   authMethod := .apiToken },
              if c.touched then touchLastUsed s record c.usedAt else s)

end Auth
