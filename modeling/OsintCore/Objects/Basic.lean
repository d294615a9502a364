import Mathlib

-- A UUID is known by its value only; the order of the values is the order of the backends' keys.
abbrev Uuid := Nat

abbrev SourceId               := Uuid
abbrev RawEvidenceId          := Uuid
abbrev DocumentId             := Uuid
abbrev EntityId               := Uuid
abbrev RelationshipId         := Uuid
abbrev ProvenanceId           := Uuid
abbrev DuplicateGroupId       := Uuid
abbrev RelationshipEvidenceId := Uuid
abbrev EntityExtractionId     := Uuid
abbrev ObjectId               := Uuid
abbrev EntityAliasId          := Uuid
abbrev EntityIdentifierId     := Uuid
abbrev MergeHistoryId         := Uuid

-- Microseconds since the epoch.
abbrev Timestamp := Int

-- Confidences and similarities are only ever compared, never computed with.
abbrev Confidence := ℚ

-- `serde_json::Value`. An object lists its entries; the first one with a given name counts. A number
-- is an integer or has been written with a fraction.
inductive Json
  | null
  | bool (b : Bool)
  | number (n : Int)
  | float (x : ℚ)
  | string (s : String)
  | array (values : List Json)
  | object (fields : List (String × Json))

namespace Json

instance : Inhabited Json where
  default := .null

def asObject : Json → Option (List (String × Json))
  | object fields => some fields
  | _             => none

def asArray : Json → Option (List Json)
  | array values => some values
  | _            => none

def asStr : Json → Option String
  | string s => some s
  | _        => none

def get (j : Json) (name : String) : Option Json :=
  j.asObject >>= (·.lookup name)

-- `Map::insert` on the entries of an object.
def insert (fields : List (String × Json)) (name : String) (value : Json) : List (String × Json) :=
  (name, value) :: fields.filter (·.fst ≠ name)

end Json

inductive DocumentType
  | article | webPage | post | message | report | file | advisory
  deriving DecidableEq, Repr

inductive EntityType
  | person | organization | account | domain | hostname | ip | url | email | vulnerability
  | software | product | repository | hash | location | threatActor | malware | indicator
  deriving DecidableEq, Repr

inductive RelationshipType
  | mentions | references | publishedBy | authoredBy | linksTo | affects | belongsTo | memberOf
  | owns | uses | locatedAt | associatedWith | derivedFrom | indicates | attributedTo | targets
  | mitigates
  deriving DecidableEq, Repr

-- The natural keys from which the services derive version 5 UUIDs. Each constructor stands for one of
-- their namespaces.
inductive V5Name
  | entity (entityType : EntityType) (normalizedName : String)
  | relationship (source : ObjectId) (relationshipType : RelationshipType) (target : ObjectId)
  | relationshipEvidence (relationshipId : RelationshipId) (objectId : ObjectId)
    (textOffset : Option Int32)
  | extraction (objectId : ObjectId) (entityId : EntityId) (extractor : String)
    (textOffset : Option Int32)
  | identifier («namespace» : String) (entityId : EntityId) (normalizedName : String)
  | duplicateGroup (memberObjectId : ObjectId)
  deriving DecidableEq

namespace Sample

def codes : V5Name → List (List Nat)
  | .entity type name => [[0, type.ctorIdx], name.toList.map Char.toNat]
  | .relationship source type target => [[1, source, type.ctorIdx, target]]
  | .relationshipEvidence id object offset =>
    [[2, id, object], offset.toList.map (·.toBitVec.toNat)]
  | .extraction object entity extractor offset =>
    [[3, object, entity], extractor.toList.map Char.toNat, offset.toList.map (·.toBitVec.toNat)]
  | .identifier ns entity name =>
    [[4, entity], ns.toList.map Char.toNat, name.toList.map Char.toNat]
  | .duplicateGroup member => [[5, member]]

-- Like a hash, it gives no two names the same value.
def newV5 (n : V5Name) : Uuid :=
  Encodable.encode (codes n)

theorem newV5_injective : Function.Injective newV5 := by
  have hn {s t : String} : s.toList.map Char.toNat = t.toList.map Char.toNat ↔ s = t :=
    ⟨fun h => String.toList_inj.mp <| List.map_injective_iff.mpr (fun _ _ => Char.toNat_inj.mp) h,
      fun h => h ▸ rfl⟩
  have ho {a b : Option Int32} :
      a.toList.map (·.toBitVec.toNat) = b.toList.map (·.toBitVec.toNat) ↔ a = b := by
    cases a <;> cases b <;> simp [BitVec.toNat_inj, Int32.toBitVec_inj]
  have he {s t : EntityType} : s.ctorIdx = t.ctorIdx ↔ s = t := by
    refine ⟨fun h => ?_, fun h => h ▸ rfl⟩
    cases s <;> cases t <;> first | rfl | cases h
  have hr {s t : RelationshipType} : s.ctorIdx = t.ctorIdx ↔ s = t := by
    refine ⟨fun h => ?_, fun h => h ▸ rfl⟩
    cases s <;> cases t <;> first | rfl | cases h
  intro a b h
  have h := Encodable.encode_injective h
  cases a <;> cases b <;> simp [codes, hn, ho, he, hr] at h ⊢ <;> simp [h]

end Sample
