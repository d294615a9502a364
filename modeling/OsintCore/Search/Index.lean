import OsintCore.Objects.Basic

-- `_source` by the names of its fields.
abbrev SearchSource := String → Option Json

-- A partial document replaces the fields which it names. Where no value is an object, there is
-- nothing to merge below them.
def SearchSource.merge (source : SearchSource) (fields : List (String × Json)) : SearchSource :=
  fun name => fields.lookup name <|> source name

-- The `_id` of a search document is the text of an id, so that the id itself can stand for it.
structure SearchDocument where
  id   : Uuid
  body : List (String × Json)

structure BulkFailure where
  id     : Uuid
  status : Nat
  deriving DecidableEq

def BulkFailure.isRetryable (failure : BulkFailure) : Bool :=
  failure.status ∈ [429, 502, 503, 504]

-- What becomes of a bulk request: the status with which an item is refused, and whether an answer
-- with all the items arrives.
structure BulkReply where
  refused  : Nat → Option Nat := fun _ => none
  answered : Bool             := true

structure BulkIndexResult where
  indexed  : Nat
  failures : List BulkFailure

-- Anything else which goes wrong in the backend is `unknown`.
inductive SearchError
  | notFound
  | unknown
  deriving DecidableEq, Repr

-- An index by the ids of its documents.
abbrev SearchIndex := Uuid → Option SearchSource

namespace SearchIndex

variable (index : SearchIndex)

def empty : SearchIndex :=
  fun _ => none

-- `_update` with `doc_as_upsert`
def upsertFields (d : SearchDocument) : SearchIndex :=
  Function.update index d.id <| some <| (index d.id |>.getD fun _ => none).merge d.body

-- The refused items of a request leave no trace in the index.
def applyItems (documents : List SearchDocument) (refused : Nat → Option Nat) : SearchIndex :=
  documents.zipIdx.foldl (fun index (d, i) => if (refused i).isSome then index
    else upsertFields index d) index

def collectBulkFailures (documents : List SearchDocument) (refused : Nat → Option Nat) :
    List BulkFailure :=
  documents.zipIdx.filterMap fun (d, i) => (refused i).map fun status => ⟨d.id, status⟩

-- Without an answer it is unknown what has been written.
def bulkUpsertFields (documents : List SearchDocument) (reply : BulkReply) :
    Except SearchError BulkIndexResult × SearchIndex :=
  if documents.isEmpty then (.ok ⟨0, []⟩, index)
  else
    let failures := collectBulkFailures documents reply.refused
    let result   := if reply.answered then .ok ⟨documents.length - failures.length, failures⟩
      else .error .unknown
    (result, applyItems index documents reply.refused)

def delete (id : Uuid) : Bool × SearchIndex :=
  ((index id).isSome, Function.update index id none)

-- There is no upsert: a document which is not there is not created.
def updateFields (id : Uuid) (fields : List (String × Json)) : Except SearchError SearchIndex :=
  match index id with
  | none        => .error .notFound
  | some source => .ok <| Function.update index id <| some <| source.merge fields

end SearchIndex
