import OsintCore.Table.Basic
import OsintCore.Objects.Basic

abbrev ConnectorId := Uuid

structure Connector where
  id                  : ConnectorId
  sourceId            : SourceId
  name                : String
  connectorType       : String
  version             : String
  enabled             : Bool
  configuration       : Json
  credentialReference : Option String
  schedule            : Option String
  rateLimit           : Json
  timeout             : Json
  proxyReference      : Option String
  checkpoint          : Json
  lastRun             : Option Timestamp
  lastSuccess         : Option Timestamp
  status              : String
  errorCount          : Int32

instance : Keyed Connector Uuid := ⟨Connector.id⟩

@[simp]
theorem Connector.key_eq (c : Connector) : Keyed.key c = c.id :=
  rfl

inductive CheckpointUpdate
  | unchanged
  | replace (value : Json)
  | merge (patch : Json)

structure ConnectorRunStateUpdate where
  status      : Option String    := none
  lastRun     : Option Timestamp := none
  lastSuccess : Option Timestamp := none
  errorCount  : Option Int32     := none
  checkpoint  : CheckpointUpdate := .unchanged

-- `StorageError::ConstraintViolation`
structure CheckpointError where
  message : String
  deriving DecidableEq, Repr

def jsonValueKind : Json → String
  | .null     => "null"
  | .bool _   => "boolean"
  | .number _ => "number"
  | .float _  => "number"
  | .string _ => "string"
  | .array _  => "array"
  | .object _ => "object"

def notAnObject (value : Json) : CheckpointError where
  message := "connector checkpoint 更新必須是 JSON 物件，實際是 " ++ jsonValueKind value ++
    "。請改傳 object，例如 `\x7b\"last_error\": \"...\"\x7d`"

-- The keys of the patch are written one by one. In an object the first entry with a name counts, so
-- that they are written from the last one on.
def mergeJsonObjects (base patch : Json) : Json :=
  .object <| (patch.asObject.getD []).foldr (fun (key, value) out => Json.insert out key value)
    (base.asObject.getD [])

namespace ConnectorRunStateUpdate

variable (update : ConnectorRunStateUpdate)

def validate : Except CheckpointError Unit :=
  match update.checkpoint with
  | .unchanged                     => .ok ()
  | .replace value | .merge value =>
    if value.asObject.isSome then .ok () else .error (notAnObject value)

def applyTo (connector : Connector) : Connector :=
  { connector with
    status      := update.status.getD connector.status
    lastRun     := update.lastRun <|> connector.lastRun
    lastSuccess := update.lastSuccess <|> connector.lastSuccess
    errorCount  := update.errorCount.getD connector.errorCount
    checkpoint  :=
      match update.checkpoint with
      | .unchanged     => connector.checkpoint
      | .replace value => value
      | .merge patch   => mergeJsonObjects connector.checkpoint patch }

end ConnectorRunStateUpdate

-- Reads the row, changes it and writes it back.
def updateConnectorRunState (connectors : Table Connector) (id : ConnectorId)
    (update : ConnectorRunStateUpdate) : Except CheckpointError (Bool × Table Connector) := do
  update.validate
  match connectors.get? id with
  | none           => return (false, connectors)
  | some connector => return (true, connectors.put (update.applyTo connector))

-- `MergePatch` of RFC 7396. The names of the patch are distinct, so that each of them is patched in the
-- target as it was: in an object the first entry with a name counts.
mutual

def jsonPatch (target patch : Json) : Json :=
  match patch with
  | .object fields => .object (patchFields (target.asObject.getD []) fields)
  | value          => value

def patchFields (target : List (String × Json)) (fields : List (String × Json)) :
    List (String × Json) :=
  match fields with
  | []                    => target
  | (name, value) :: rest =>
    let out := patchFields target rest
    match value with
    | .null => out.filter (·.fst ≠ name)
    | value => Json.insert out name (jsonPatch ((target.lookup name).getD .null) value)

end

namespace SqliteStore

-- `SecondsFormat::Millis`
def stored (t : Timestamp) : Timestamp :=
  t / 1000 * 1000

-- `UPDATE connectors SET ... WHERE id = ?1`
def setRunState (update : ConnectorRunStateUpdate) (connector : Connector) : Connector :=
  { connector with
    status      := update.status.getD connector.status
    lastRun     := update.lastRun.map stored <|> connector.lastRun
    lastSuccess := update.lastSuccess.map stored <|> connector.lastSuccess
    errorCount  := update.errorCount.getD connector.errorCount
    checkpoint  :=
      match update.checkpoint with
      | .unchanged     => connector.checkpoint
      | .replace value => value
      | .merge patch   =>
        jsonPatch (if connector.checkpoint.asObject.isSome then connector.checkpoint else .object [])
          patch }

def updateConnectorRunState (connectors : Table Connector) (id : ConnectorId)
    (update : ConnectorRunStateUpdate) : Except CheckpointError (Bool × Table Connector) := do
  update.validate
  match connectors.get? id with
  | none           => return (false, connectors)
  | some connector => return (true, connectors.put (setRunState update connector))

end SqliteStore

structure ConnectorCheckpoint where
  lastRetrievedAt : Option Timestamp := none
  etag            : Option String    := none
  lastModified    : Option String    := none
  contentSha256   : Option String    := none
  deriving DecidableEq, Repr

-- How a timestamp is written and read is a parameter.
structure Rfc3339 where
  format : Timestamp → String
  parse  : String → Option Timestamp

namespace ConnectorCheckpoint

variable (time : Rfc3339)

def decodeText : Json → Option (Option String)
  | .null        => some none
  | .string text => some (some text)
  | _            => none

def decodeTime : Json → Option (Option Timestamp)
  | .null        => some none
  | .string text => (time.parse text).map some
  | _            => none

def decodeParts (lastRetrievedAt etag lastModified contentSha256 : Json) :
    Option ConnectorCheckpoint := do
  let lastRetrievedAt ← decodeTime time lastRetrievedAt
  let etag            ← decodeText etag
  let lastModified    ← decodeText lastModified
  let contentSha256   ← decodeText contentSha256
  return { lastRetrievedAt, etag, lastModified, contentSha256 }

-- A field which is missing is `None`. An array is read by position, where only the last field has a
-- default.
def decode (value : Json) : Option ConnectorCheckpoint :=
  match value with
  | .object _ =>
    let field (name : String) := (value.get name).getD .null
    decodeParts time (field "last_retrieved_at") (field "etag") (field "last_modified")
      (field "content_sha256")
  | .array [a, b, c]    => decodeParts time a b c .null
  | .array [a, b, c, d] => decodeParts time a b c d
  | _                   => none

def fromValue (value : Json) : ConnectorCheckpoint :=
  (decode time value).getD {}

def toValue (checkpoint : ConnectorCheckpoint) : Json :=
  let text (s : Option String) := s.elim Json.null .string
  .object [
    ("last_retrieved_at", checkpoint.lastRetrievedAt.elim .null fun t => .string (time.format t)),
    ("etag",              text checkpoint.etag),
    ("last_modified",     text checkpoint.lastModified),
    ("content_sha256",    text checkpoint.contentSha256)]

-- `RelationalCheckpointStore::save`
def saving (checkpoint : ConnectorCheckpoint) : ConnectorRunStateUpdate where
  checkpoint := .merge (checkpoint.toValue time)

end ConnectorCheckpoint

namespace Sample

def rss (checkpoint : Json) : Connector where
  id                  := 1
  sourceId            := 1
  name                := "feed"
  connectorType       := "rss"
  version             := "1"
  enabled             := true
  configuration       := .object []
  credentialReference := none
  schedule            := none
  rateLimit           := .object []
  timeout             := .object []
  proxyReference      := none
  checkpoint          := checkpoint
  lastRun             := none
  lastSuccess         := none
  status              := "idle"
  errorCount          := 0

end Sample
