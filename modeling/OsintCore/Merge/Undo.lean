import OsintCore.Merge.Service

namespace Merge

-- Only a relationship is returned: it is the only row whose change is announced.
def restoreReference (db : Store) (r : RepointedReference) (now : Timestamp) :
    Except MergeError (Store × Option Relationship) :=
  let missing := .referenceMissing r.table r.rowId r.column
  let unknownColumn := .unknownReferenceColumn r.table r.rowId r.column
  match r.table with
  | "relationships" => do
    let row ← orThrow (db.getRelationship r.rowId) missing
    let row ← match r.column with
      | "source_object_id" => pure { row with sourceObjectId := r.previousValue }
      | "target_object_id" => pure { row with targetObjectId := r.previousValue }
      | _                  => throw unknownColumn
    let row := { row with updatedAt := now }
    return (← storage <| db.putRelationship row, some row)
  | "entity_aliases" => do
    let row ← orThrow (db.getEntityAlias r.rowId) missing
    if r.column ≠ "entity_id" then
      throw unknownColumn
    return (← storage <| db.putEntityAlias { row with entityId := r.previousValue }, none)
  | "entity_identifiers" => do
    let row ← orThrow (db.getEntityIdentifier r.rowId) missing
    if r.column ≠ "entity_id" then
      throw unknownColumn
    return (← storage <| db.putEntityIdentifier { row with entityId := r.previousValue }, none)
  | "entity_extractions" => do
    let row ← orThrow (db.getEntityExtraction r.rowId) missing
    if r.column ≠ "entity_id" then
      throw unknownColumn
    return (← storage <| db.putEntityExtraction { row with entityId := r.previousValue }, none)
  | table => throw (.unknownReferenceTable table r.rowId)

abbrev Undo := Store × List RelationshipChange

namespace Undo

def restore (now : Timestamp) (u : Undo) (r : RepointedReference) : Except MergeError Undo := do
  let (db, restored) ← restoreReference u.fst r now
  return (db, u.snd ++ (restored.map (RelationshipChange.fromRelationship · .upserted)).toList)

def returnEvidence (absorbedId : RelationshipId) (db : Store) (id : RelationshipEvidenceId) :
    Except MergeError Store := do
  let ev ← orThrow (db.getRelationshipEvidence id)
    (.referenceMissing "relationship_evidence" id "relationship_id")
  storage <| db.putRelationshipEvidence { ev with relationshipId := absorbedId }

def restoredTo (absorber : Relationship) (pre : AbsorberSnapshot) (now : Timestamp) :
    Relationship :=
  { absorber with
    evidenceCount := pre.evidenceCount
    confidence    := pre.confidence
    firstSeen     := pre.firstSeen
    lastSeen      := pre.lastSeen
    updatedAt     := now }

-- A relationship which became a self-loop has no absorber: only its own row is rebuilt.
def unmerge (id : MergeHistoryId) (now : Timestamp) (u : Undo) (mr : MergedRelationship) :
    Except MergeError Undo := do
  let db ← storage <| u.fst.putRelationship mr.absorbedSnapshot
  let changes := u.snd ++ [.fromRelationship mr.absorbedSnapshot .upserted]
  match mr.absorberRelationshipId with
  | none => return (db, changes)
  | some absorberId =>
    let db ← mr.movedEvidenceIds.foldlM (returnEvidence mr.absorbedRelationshipId) db
    let absorber ← orThrow (db.getRelationship absorberId)
      (.referenceMissing "relationships" absorberId "evidence_count")
    let pre ← orThrow mr.absorberPreMerge (.missingAbsorberSnapshot id absorberId)
    let absorber := restoredTo absorber pre now
    let db ← storage <| db.putRelationship absorber
    return (db, changes ++ [.fromRelationship absorber .upserted])

end Undo

def undoInTx (db : Store) (history : MergeHistory) (now : Timestamp) :
    Except MergeError (Store × List RelationshipChange) := do
  let u ← history.repointedReferences.reverse.foldlM (Undo.restore now) (db, [])
  let u ← history.mergedRelationships.reverse.foldlM (Undo.unmerge history.id now) u
  let mergedEntity ← orThrow (u.fst.getEntity history.mergedId) (.entityNotFound history.mergedId)
  let db ← storage <| u.fst.putEntity { mergedEntity with mergedInto := none }
  let db ← storage <| db.putMergeHistory { history with undoneAt := some now }
  return (db, u.snd)

def undoMerge (db : Store) (id : MergeHistoryId) (now : Timestamp) :
    Except MergeError (Store × List RelationshipChange) := do
  let history ← orThrow (db.getMergeHistory id) (.historyNotFound id)
  match history.undoneAt with
  | some undoneAt => throw (.alreadyUndone id undoneAt)
  | none =>
    let survivor ← requireEntity db history.survivorId
    match survivor.mergedInto with
    | some into => throw (.survivorLaterMerged history.survivorId into)
    | none =>
      let _ ← requireEntity db history.mergedId
      undoInTx db history now

-- Runs of the merge service, in which the operations follow one another.
section Runs

inductive Op
  | executeMerge (survivorId mergedId : EntityId) (ctx : Context)
  | undoMerge (id : MergeHistoryId) (now : Timestamp)

-- An operation which fails is rolled back.
def Op.step (σ : Store) : Op → Store
  | .executeMerge survivorId mergedId ctx =>
    match executeMergeWithAudit σ survivorId mergedId ctx with
    | .ok (σ', _) => σ'
    | .error _    => σ
  | .undoMerge id now =>
    match Merge.undoMerge σ id now with
    | .ok (σ', _) => σ'
    | .error _    => σ

def run (σ : Store) (ops : List Op) : Store :=
  ops.foldl Op.step σ

end Runs

end Merge
