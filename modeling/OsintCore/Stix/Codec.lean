import OsintCore.Objects.Decode
import OsintCore.Stix.Types

namespace Stix

-- The types of the fields.

def textField : FieldCodec Json.isNull String :=
  .required Json.asStr .string (fun _ => True) (fun _ => rfl) fun _ => trivial

def optTextField : FieldCodec Json.isNull (Option String) :=
  .optionalOf Json.asStr .string rfl (by simp [Json.isNull])

def optBoolField : FieldCodec Json.isNull (Option Bool) :=
  .optionalOf Json.asBool .bool rfl (by simp [Json.isNull])

def optTimeField (time : TimeText) : FieldCodec Json.isNull (Option Timestamp) :=
  .optionalOf (·.asStr >>= time.parse) (.string <| time.format ·) (time.parse_format _)
    (by simp [Json.isNull])

def StixId.decode (j : Json) : Option StixId :=
  j.asStr >>= fun raw => (parse raw).toOption

def idField : FieldCodec Json.isNull StixId :=
  .required StixId.decode (.string ·.text) (fun _ => True)
    (by simp [StixId.decode, Json.asStr, Except.toOption]) fun _ => trivial

namespace IdentityClass

-- The name of another class is not one of the names above.
def Proper : IdentityClass → Prop
  | other name => named.lookup name = none
  | _          => True

instance : DecidablePred Proper
  | other _ => inferInstanceAs (Decidable (_ = none))
  | individual | organization | group | «class» | system | unknown => .isTrue trivial

theorem decode_asStr {c : IdentityClass} (h : c.Proper) : decode (.string c.asStr) = some c := by
  cases c
  case other name =>
    have h : named.lookup name = none := h
    simp [decode, asStr, h]
  all_goals rfl

theorem proper_of_lookup {name : String} {c : IdentityClass} (h : named.lookup name = some c) :
    c.Proper := by
  have ⟨l₁, l₂, hl, _⟩ := List.lookup_eq_some_iff.mp h
  have hm : (name, c) ∈ named := by simp [hl]
  have hp : ∀ p ∈ named, p.snd.Proper := by decide
  exact hp _ hm

theorem decode_proper {j : Json} {c : IdentityClass} (h : decode j = some c) : c.Proper := by
  unfold decode at h
  split at h
  case h_1 s =>
    cases hs : named.lookup s
    case none =>
      obtain rfl : .other s = c := by simpa [hs] using h
      exact hs
    case some c' =>
      obtain rfl : c' = c := by simpa [hs] using h
      exact proper_of_lookup hs
  case h_2 =>
    split at h
    case h_1 => exact proper_of_lookup h
    case h_2 => cases h

end IdentityClass

def classField : FieldCodec Json.isNull IdentityClass :=
  .required IdentityClass.decode (.string ·.asStr) IdentityClass.Proper
    IdentityClass.decode_asStr IdentityClass.decode_proper

open RecordCodec (ofField)

variable (time : TimeText)

def CommonProperties.record : RecordCodec Json.isNull CommonProperties :=
  ofField "spec_version" optTextField
    |>.both (ofField "created" (optTimeField time))
    |>.both (ofField "modified" (optTimeField time))
    |>.map {
      toFun p  := ⟨p.fst.fst, p.fst.snd, p.snd⟩
      invFun c := ((c.specVersion, c.created), c.modified) }

@[simp]
theorem CommonProperties.names_record :
    (CommonProperties.record time).names = ["spec_version", "created", "modified"] :=
  (rfl)

def Identity.codec : TaggedCodec Json.isNull "type" Identity where
  tag      := .string "identity"
  Own      := _
  record   := ofField "id" idField
    |>.both (ofField "identity_class" classField)
    |>.both (ofField "name" textField)
    |>.both (ofField "description" optTextField)
    |>.both (CommonProperties.record time)
  untagged := by simp
  equiv    := {
    toFun    := fun (((((id, identityClass), name), description), common), extra) =>
      { id, identityClass, name, description, common, extra }
    invFun v := (((((v.id, v.identityClass), v.name), v.description), v.common), v.extra) }

def ThreatActor.codec : TaggedCodec Json.isNull "type" ThreatActor where
  tag      := .string "threat-actor"
  Own      := _
  record   := ofField "id" idField
    |>.both (ofField "name" textField)
    |>.both (ofField "description" optTextField)
    |>.both (CommonProperties.record time)
  untagged := by simp
  equiv    := {
    toFun    := fun ((((id, name), description), common), extra) =>
      { id, name, description, common, extra }
    invFun v := ((((v.id, v.name), v.description), v.common), v.extra) }

def Malware.codec : TaggedCodec Json.isNull "type" Malware where
  tag      := .string "malware"
  Own      := _
  record   := ofField "id" idField
    |>.both (ofField "name" textField)
    |>.both (ofField "description" optTextField)
    |>.both (ofField "is_family" optBoolField)
    |>.both (CommonProperties.record time)
  untagged := by simp
  equiv    := {
    toFun    := fun (((((id, name), description), isFamily), common), extra) =>
      { id, name, description, isFamily, common, extra }
    invFun v := (((((v.id, v.name), v.description), v.isFamily), v.common), v.extra) }

def Vulnerability.codec : TaggedCodec Json.isNull "type" Vulnerability where
  tag      := .string "vulnerability"
  Own      := _
  record   := ofField "id" idField
    |>.both (ofField "name" textField)
    |>.both (ofField "description" optTextField)
    |>.both (CommonProperties.record time)
  untagged := by simp
  equiv    := {
    toFun    := fun ((((id, name), description), common), extra) =>
      { id, name, description, common, extra }
    invFun v := ((((v.id, v.name), v.description), v.common), v.extra) }

def Indicator.codec : TaggedCodec Json.isNull "type" Indicator where
  tag      := .string "indicator"
  Own      := _
  record   := ofField "id" idField
    |>.both (ofField "name" optTextField)
    |>.both (ofField "pattern" optTextField)
    |>.both (ofField "description" optTextField)
    |>.both (CommonProperties.record time)
  untagged := by simp
  equiv    := {
    toFun    := fun (((((id, name), pattern), description), common), extra) =>
      { id, name, pattern, description, common, extra }
    invFun v := (((((v.id, v.name), v.pattern), v.description), v.common), v.extra) }

def Relationship.codec : TaggedCodec Json.isNull "type" Relationship where
  tag      := .string "relationship"
  Own      := _
  record   := ofField "id" idField
    |>.both (ofField "relationship_type" textField)
    |>.both (ofField "source_ref" idField)
    |>.both (ofField "target_ref" idField)
    |>.both (ofField "description" optTextField)
    |>.both (CommonProperties.record time)
  untagged := by simp
  equiv    := {
    toFun    := fun ((((((id, relationshipType), sourceRef), targetRef), description), common), extra) =>
      { id, relationshipType, sourceRef, targetRef, description, common, extra }
    invFun v := ((((((v.id, v.relationshipType), v.sourceRef), v.targetRef), v.description), v.common),
      v.extra) }

-- The observables have the same fields.
def observable : RecordCodec Json.isNull ((StixId × String) × CommonProperties) :=
  ofField "id" idField
    |>.both (ofField "value" textField)
    |>.both (CommonProperties.record time)

@[simp]
theorem names_observable :
    (observable time).names = ["id", "value", "spec_version", "created", "modified"] :=
  (rfl)

def DomainName.codec : TaggedCodec Json.isNull "type" DomainName where
  tag      := .string "domain-name"
  Own      := _
  record   := observable time
  untagged := by simp
  equiv    := {
    toFun    := fun (((id, value), common), extra) => { id, value, common, extra }
    invFun v := (((v.id, v.value), v.common), v.extra) }

def Ipv4Addr.codec : TaggedCodec Json.isNull "type" Ipv4Addr where
  tag      := .string "ipv4-addr"
  Own      := _
  record   := observable time
  untagged := by simp
  equiv    := {
    toFun    := fun (((id, value), common), extra) => { id, value, common, extra }
    invFun v := (((v.id, v.value), v.common), v.extra) }

def Url.codec : TaggedCodec Json.isNull "type" Url where
  tag      := .string "url"
  Own      := _
  record   := observable time
  untagged := by simp
  equiv    := {
    toFun    := fun (((id, value), common), extra) => { id, value, common, extra }
    invFun v := (((v.id, v.value), v.common), v.extra) }

def EmailAddr.codec : TaggedCodec Json.isNull "type" EmailAddr where
  tag      := .string "email-addr"
  Own      := _
  record   := observable time
  untagged := by simp
  equiv    := {
    toFun    := fun (((id, value), common), extra) => { id, value, common, extra }
    invFun v := (((v.id, v.value), v.common), v.extra) }

namespace CustomObject

def record : RecordCodec Json.isNull (String × StixId) :=
  ofField "type" textField |>.both (ofField "id" idField)

@[simp]
theorem names_record : record.names = ["type", "id"] :=
  (rfl)

def decode (m : Fields Json) : Option CustomObject :=
  record.decodeFlat m |>.map fun ((type, id), extra) => { type, id, extra }

def encode (v : CustomObject) : Fields Json :=
  record.encodeFlat ((v.type, v.id), v.extra)

end CustomObject

namespace StixObject

def dispatchObject (typeName : String) (value : Json) : Option StixObject :=
  match typeName with
  | "identity"      => (Identity.codec time).decode value.fields |>.map identity
  | "threat-actor"  => (ThreatActor.codec time).decode value.fields |>.map threatActor
  | "malware"       => (Malware.codec time).decode value.fields |>.map malware
  | "vulnerability" => (Vulnerability.codec time).decode value.fields |>.map vulnerability
  | "indicator"     => (Indicator.codec time).decode value.fields |>.map indicator
  | "relationship"  => (Relationship.codec time).decode value.fields |>.map relationship
  | "domain-name"   => (DomainName.codec time).decode value.fields |>.map domainName
  | "ipv4-addr"     => (Ipv4Addr.codec time).decode value.fields |>.map ipv4Addr
  | "url"           => (Url.codec time).decode value.fields |>.map url
  | "email-addr"    => (EmailAddr.codec time).decode value.fields |>.map emailAddr
  | other           =>
    if Text.startsWith other "x-" then CustomObject.decode value.fields |>.map custom
    else some (unknown value)

-- What is not an object, or has no text as its type, is not known.
def decode (value : Json) : Option StixObject :=
  let typeName := (value.get "type" >>= Json.asStr).getD ""
  dispatchObject time typeName value

def encode : StixObject → Json
  | identity v      => .ofFields <| (Identity.codec time).encode v
  | threatActor v   => .ofFields <| (ThreatActor.codec time).encode v
  | malware v       => .ofFields <| (Malware.codec time).encode v
  | vulnerability v => .ofFields <| (Vulnerability.codec time).encode v
  | indicator v     => .ofFields <| (Indicator.codec time).encode v
  | relationship v  => .ofFields <| (Relationship.codec time).encode v
  | domainName v    => .ofFields <| (DomainName.codec time).encode v
  | ipv4Addr v      => .ofFields <| (Ipv4Addr.codec time).encode v
  | url v           => .ofFields <| (Url.codec time).encode v
  | emailAddr v     => .ofFields <| (EmailAddr.codec time).encode v
  | custom v        => .ofFields v.encode
  | unknown value   => value

def typeName : StixObject → String
  | identity _      => "identity"
  | threatActor _   => "threat-actor"
  | malware _       => "malware"
  | vulnerability _ => "vulnerability"
  | indicator _     => "indicator"
  | relationship _  => "relationship"
  | domainName _    => "domain-name"
  | ipv4Addr _      => "ipv4-addr"
  | url _           => "url"
  | emailAddr _     => "email-addr"
  | custom v        => v.type
  | unknown value   => (value.get "type" >>= Json.asStr).getD ""

end StixObject

namespace StixBundle

-- `raw` is what the text of the bundle has been parsed to.
def decode (raw : Json) : Option StixBundle := do
  let fields ← raw.asStruct ["type", "id", "objects"]
  let type ← Json.decodeField fields "type" Json.asStr
  let id ← Json.decodeField fields "id" StixId.decode
  let objects ← Json.decodeField fields "objects" (Json.decodeList (StixObject.decode time))
  return { type, id, objects }

end StixBundle

end Stix
