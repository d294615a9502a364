import OsintCore.Control.Except
import OsintCore.Stix.Types

namespace Stix

section Object

-- How values are shown in messages.
variable (display : Json → String) (index : Nat)

def checkObjectType (value : Option Json) : Except StixError Unit :=
  match value with
  | none       => .error <| .invalidObject index "缺少 `type` 欄位"
  | some other =>
    if other.asStr.any (· ≠ "") then .ok ()
    else .error <| .invalidObject index <| "`type` 必須是非空字串，實際是 " ++ display other

def checkObjectId (value : Option Json) : Except StixError Unit :=
  match value with
  | none              => .error <| .invalidObject index "缺少 `id` 欄位，必須是 `type--<uuid>`"
  | some (.string id) => (StixId.check id).mapError fun
    | .invalidId id message => .invalidObject index <| "id `" ++ id ++ "` " ++ message
    | other                 => other
  | some other        => .error <| .invalidObject index <| "`id` 必須是字串，實際是 " ++ display other

def validateObject (item : Json) : Except StixError Unit :=
  match item.asObject with
  | none     => .error <| .invalidObject index "必須是 JSON object，不能是陣列或純量"
  | some obj => do
    checkObjectType display index (obj.lookup "type")
    checkObjectId display index (obj.lookup "id")

end Object

section Bundle

variable (display : Json → String)

def checkBundleType (value : Option Json) : Except StixError Unit :=
  match value with
  | none       => .error <| .invalidBundle "缺少 `type` 欄位，必須是 `\"bundle\"`"
  | some other =>
    if other.asStr.any (· = "bundle") then .ok ()
    else .error <| .invalidBundle <|
      "`type` 必須是 `\"bundle\"`，實際是 " ++ display other ++
      "。這支函式只接受 STIX bundle，單一 SDO 請包進 bundle 再送"

def checkBundleId (value : Option Json) : Except StixError Unit :=
  match value with
  | none              => .error <| .invalidBundle "缺少 `id` 欄位，必須是 `bundle--<uuid>`"
  | some (.string id) => do
    let parsed ← StixId.parse id
    if parsed.typePrefix = "bundle" then .ok ()
    else .error <| .invalidId id <|
      "bundle 的 id 前綴必須是 `bundle`，實際是 `" ++ parsed.typePrefix ++ "`"
  | some other        => .error <| .invalidBundle <| "`id` 必須是字串，實際是 " ++ display other

def checkObjects (value : Option Json) : Except StixError (List Json) :=
  match value with
  | none                => .error <| .invalidBundle "缺少 `objects` 欄位，必須是物件陣列（可為空）"
  | some (.array items) => .ok items
  | some other          =>
    .error <| .invalidBundle <| "`objects` 必須是陣列，實際是 " ++ display other

-- The structure of a bundle, not the fields of its objects.
def validateBundle (raw : Json) (maxObjects : Nat) : Except StixError Unit :=
  match raw.asObject with
  | none     => .error <| .invalidBundle "根節點必須是 JSON object，不能是陣列或純量"
  | some obj => do
    checkBundleType display (obj.lookup "type")
    checkBundleId display (obj.lookup "id")
    let objects ← checkObjects display (obj.lookup "objects")
    if objects.length > maxObjects then .error <| .tooManyObjects objects.length maxObjects
    else objects.zipIdx.forM fun (item, index) => validateObject display index item

end Bundle

end Stix
