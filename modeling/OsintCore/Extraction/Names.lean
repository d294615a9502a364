import OsintCore.Extraction.Service

-- What an extraction is going to do, told from the store before it: which entity each item names, and
-- how many of the edges are reached.
namespace EntityWorker

variable (w : EntityWorker)

-- The owner of each natural key, and the entities which the document has named so far.
structure Names where
  owner     : NaturalKey → Option EntityId
  entityIds : List (NaturalKey × EntityId)

namespace Names

def ofStore (σ : Store) : Names where
  owner k   := (σ.findEntityByNormalizedName k.fst k.snd).map Entity.id
  entityIds := []

def idOf (n : Names) (k : NaturalKey) : EntityId :=
  n.entityIds.lookup k |>.getD <| n.owner k |>.getD <| w.entityId k.fst k.snd

-- The entity takes the key, and gives up any other key which it may have had.
def claim (n : Names) (k : NaturalKey) (id : EntityId) : Names where
  owner k'  := if k' = k then some id else if n.owner k' = some id then none else n.owner k'
  entityIds := (k, id) :: n.entityIds

def after (n : Names) (k : NaturalKey) : Names :=
  if (n.entityIds.lookup k).isSome then n else n.claim k (n.idOf w k)

end Names

def mentionEdges (ctx : Context) : Names → List Extracted → List Edge
  | _, []           => []
  | n, item :: items =>
    mentionEdge ctx item (n.idOf w item.naturalKey) ::
      mentionEdges ctx (n.after w item.naturalKey) items

def namesAfter (σ : Store) (items : List Extracted) : Names :=
  items.foldl (fun n item => n.after w item.naturalKey) (.ofStore σ)

def edges (σ : Store) (ctx : Context) (items : List Extracted) : List Edge :=
  w.mentionEdges ctx (.ofStore σ) items ++
    items.filterMap (derivedEdge (w.namesAfter σ items).entityIds)

def Edge.naturalKey (e : Edge) : ObjectId × RelationshipType × ObjectId :=
  (e.source, e.relationshipType, e.target)

-- Another relationship already has the ends of the edge, and none of the edges before has rewritten it.
def Conflicts (σ : Store) (earlier : List Edge) (e : Edge) : Prop :=
  ∃ r ∈ σ.relationships.rows, r.naturalKey = e.naturalKey ∧ r.id ≠ w.edgeId e ∧
    ∀ d ∈ earlier, r.id ≠ w.edgeId d

-- The document names raw evidence which is not there.
def EvidenceMissing (σ : Store) (ctx : Context) : Prop :=
  ∃ i ∈ ctx.rawEvidenceId, σ.rawEvidence.get? i = none

instance {σ : Store} {earlier : List Edge} {e : Edge} : Decidable (w.Conflicts σ earlier e) :=
  inferInstanceAs (Decidable (∃ r ∈ σ.relationships.rows, _))

instance {σ : Store} {ctx : Context} : Decidable (EvidenceMissing σ ctx) :=
  decidable_of_iff ((ctx.rawEvidenceId.map fun i => (σ.rawEvidence.get? i).isNone).getD false) <| by
    cases h : ctx.rawEvidenceId <;> simp [EvidenceMissing, h]

-- The edges up to the first one which cannot be written.
def reached (σ : Store) (ctx : Context) (earlier : List Edge) : List Edge → List Edge
  | []     => []
  | e :: l =>
    e :: if w.Conflicts σ earlier e ∨ EvidenceMissing σ ctx then [] else
      reached σ ctx (earlier ++ [e]) l

end EntityWorker
