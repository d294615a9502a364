import OsintCore.Api.Pagination
import OsintCore.Codec.Record

namespace Json

def isNull : Json → Bool
  | null => true
  | _    => false

def asBool : Json → Option Bool
  | bool b => some b
  | _      => none

theorem asStr_eq_some {j : Json} {s : String} : j.asStr = some s ↔ j = .string s := by
  cases j <;> simp [asStr]

theorem asBool_eq_some {j : Json} {b : Bool} : j.asBool = some b ↔ j = .bool b := by
  cases j <;> simp [asBool]

-- The entries of an object. Other values have none.
def fields : Json → Fields Json
  | object l => .ofList l
  | _        => ∅

def ofFields (m : Fields Json) : Json :=
  .object m.rows

@[simp]
theorem fields_ofFields {m : Fields Json} : (ofFields m).fields = m :=
  Fields.ofList_rows

theorem get_eq_value {j : Json} {k : String} : j.get k = j.fields.value k := by
  cases j
  case object l => exact Fields.value_ofList.symm
  all_goals rfl

end Json

-- How times are written in JSON.
structure TimeText where
  format       : Timestamp → String
  parse        : String → Option Timestamp
  parse_format : ∀ t, parse (format t) = some t

-- Only the epoch is written as a date. Other times are counted in letters.
def TimeText.epoch : TimeText where
  format t :=
    if t = 0 then "1970-01-01T00:00:00Z"
    else .ofList <| .replicate t.toNat '+' ++ .replicate (-t).toNat '-'
  parse s  :=
    if s = "1970-01-01T00:00:00Z" then some 0
    else some <| s.toList.count '+' - s.toList.count '-'
  parse_format t := by
    by_cases ht : t = 0
    case pos => simp [ht]
    case neg =>
      have hn : String.ofList (.replicate t.toNat '+' ++ .replicate (-t).toNat '-') ≠
          "1970-01-01T00:00:00Z" := by
        intro h
        have hm : '1' ∈ (String.ofList (.replicate t.toNat '+' ++ .replicate (-t).toNat '-')).toList :=
          h ▸ by decide
        simp [List.mem_replicate] at hm
      simp only [ht, if_false, hn, String.toList_ofList, List.count_append, List.count_replicate]
      simp

namespace Stix

inductive StixError
  | invalidBundle (message : String)
  | invalidId (id message : String)
  | tooManyObjects (actual limit : Nat)
  | invalidObject (index : Nat) (message : String)
  deriving DecidableEq, Repr

-- The first occurrence of the delimiter counts.
def splitOnce : List Char → Option (List Char × List Char)
  | '-' :: '-' :: l => some ([], l)
  | c :: l          => splitOnce l |>.map fun (front, back) => (c :: front, back)
  | []              => none

def isValidTypePrefix : List Char → Bool
  | []     => false
  | c :: l => c.isLower && l.all fun c => c.isLower || c.isDigit || c = '-'

-- What is wrong with the text of an id.
def StixId.check (raw : String) : Except StixError Unit :=
  match splitOnce raw.toList with
  | none                => .error <| .invalidId raw "必須是 `type--uuid`，中間要有兩個連字號 `--`"
  | some (front, back) =>
    if front = [] then .error <| .invalidId raw "`--` 前面的 type 前綴不可為空"
    else if ¬isValidTypePrefix front then .error <| .invalidId raw <|
      "type 前綴 `" ++ .ofList front ++ "` 不合法：必須是小寫字母開頭，其餘只能是 " ++
      "小寫字母、數字或連字號（例如 `identity`、`ipv4-addr`、`x-custom-object`）"
    else if back = [] then .error <| .invalidId raw "`--` 後面的 UUID 不可為空"
    else if (Uuid.parseStr (.ofList back)).isNone then .error <| .invalidId raw <|
      "UUID 部分 `" ++ .ofList back ++ "` 不是合法 RFC 4122 UUID，" ++
      "請用帶連字號的 8-4-4-4-12 形式"
    else .ok ()

structure StixId where
  text  : String
  valid : StixId.check text = .ok ()
  deriving DecidableEq

namespace StixId

def parse (raw : String) : Except StixError StixId :=
  match h : check raw with
  | .ok ()   => .ok ⟨raw, h⟩
  | .error e => .error e

@[simp]
theorem parse_text (id : StixId) : parse id.text = .ok id := by
  unfold parse
  split
  case h_1     => rfl
  case h_2 h => cases id.valid.symm.trans h

def typePrefix (id : StixId) : String :=
  splitOnce id.text.toList |>.elim "" (.ofList ·.fst)

end StixId

structure CommonProperties where
  specVersion : Option String
  created     : Option Timestamp
  modified    : Option Timestamp
  deriving DecidableEq

inductive IdentityClass
  | individual | organization | group | «class» | system | unknown
  | other (name : String)
  deriving DecidableEq

namespace IdentityClass

def named : List (String × IdentityClass) := [
  ("individual", individual), ("organization", organization), ("group", group), ("class", «class»),
  ("system", system), ("unknown", unknown)]

-- A class with a name is also read from an object with this name and no content.
def decode : Json → Option IdentityClass
  | .string s => some <| (named.lookup s).getD (.other s)
  | j         =>
    match j.fields.rows with
    | [(name, .null)] => named.lookup name
    | _               => none

def asStr : IdentityClass → String
  | individual   => "individual"
  | organization => "organization"
  | group        => "group"
  | «class»      => "class"
  | system       => "system"
  | unknown      => "unknown"
  | other name   => name

end IdentityClass

structure Identity where
  id            : StixId
  identityClass : IdentityClass
  name          : String
  description   : Option String
  common        : CommonProperties
  extra         : Fields Json

structure ThreatActor where
  id          : StixId
  name        : String
  description : Option String
  common      : CommonProperties
  extra       : Fields Json

structure Malware where
  id          : StixId
  name        : String
  description : Option String
  isFamily    : Option Bool
  common      : CommonProperties
  extra       : Fields Json

structure Vulnerability where
  id          : StixId
  name        : String
  description : Option String
  common      : CommonProperties
  extra       : Fields Json

structure Indicator where
  id          : StixId
  name        : Option String
  pattern     : Option String
  description : Option String
  common      : CommonProperties
  extra       : Fields Json

structure Relationship where
  id               : StixId
  relationshipType : String
  sourceRef        : StixId
  targetRef        : StixId
  description      : Option String
  common           : CommonProperties
  extra            : Fields Json

structure DomainName where
  id     : StixId
  value  : String
  common : CommonProperties
  extra  : Fields Json

structure Ipv4Addr where
  id     : StixId
  value  : String
  common : CommonProperties
  extra  : Fields Json

structure Url where
  id     : StixId
  value  : String
  common : CommonProperties
  extra  : Fields Json

structure EmailAddr where
  id     : StixId
  value  : String
  common : CommonProperties
  extra  : Fields Json

structure CustomObject where
  type  : String
  id    : StixId
  extra : Fields Json

-- Types which begin with `x-` are custom, other types which are not known keep their JSON.
inductive StixObject
  | identity (v : Identity)
  | threatActor (v : ThreatActor)
  | malware (v : Malware)
  | vulnerability (v : Vulnerability)
  | indicator (v : Indicator)
  | relationship (v : Relationship)
  | domainName (v : DomainName)
  | ipv4Addr (v : Ipv4Addr)
  | url (v : Url)
  | emailAddr (v : EmailAddr)
  | custom (v : CustomObject)
  | unknown (value : Json)

structure StixBundle where
  type    : String
  id      : StixId
  objects : List StixObject

end Stix
