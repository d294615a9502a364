import OsintCore.Indexer.Service

@[ext]
structure ProjectionCheckpoint where
  projection     : String
  lastSourceAt   : Option Timestamp
  lastObjectId   : Option ObjectId
  objectsWritten : UInt64
  updatedAt      : Timestamp
  deriving DecidableEq

-- `u64::saturating_add`
def UInt64.saturatingAdd (a b : UInt64) : UInt64 :=
  .ofNat <| min (a.toNat + b.toNat) (2 ^ 64 - 1)

def ProjectionCheckpoint.empty (projection : String) (now : Timestamp) : ProjectionCheckpoint where
  projection     := projection
  lastSourceAt   := none
  lastObjectId   := none
  objectsWritten := 0
  updatedAt      := now

def ProjectionCheckpoint.advance (self : ProjectionCheckpoint) (sourceAt : Option Timestamp)
    (objectId : Option ObjectId) (written : UInt64) (now : Timestamp) : ProjectionCheckpoint :=
  let self := { self with
    objectsWritten := self.objectsWritten.saturatingAdd written
    updatedAt      := now }
  match sourceAt with
  | none          => self
  | some sourceAt =>
    -- `Option::is_none_or`
    if self.lastSourceAt.all (· < sourceAt) then
      { self with lastSourceAt := some sourceAt, lastObjectId := objectId }
    else self

namespace Indexer

structure SourceMark where
  id       : String
  sourceAt : Option Timestamp

structure BatchProgress where
  lastSourceAt : Option Timestamp := none
  lastObjectId : Option Uuid      := none
  written      : UInt64           := 0

-- A batch which has been flushed. Of the report, the number of the items which are in the index
-- and the ids of the permanent failures are read.
structure FlushedBatch where
  marks             : List SourceMark
  indexed           : UInt32
  permanentFailures : List String

def BatchProgress.fromMarks (batch : FlushedBatch) : BatchProgress :=
  let failed := batch.permanentFailures
  batch.marks.foldl
    (fun progress mark =>
      if mark.id ∈ failed then progress
      else match mark.sourceAt with
        | none          => progress
        | some sourceAt =>
          if progress.lastSourceAt.all (· < sourceAt) then
            { progress with
              lastSourceAt := some sourceAt
              lastObjectId := Uuid.parseStr mark.id }
          else progress)
    { written := batch.indexed.toUInt64 }

end Indexer

open Indexer

-- The batches from the `step`-th on, each of which is folded in at a time of its own.
def ProjectionCheckpoint.advanceAll (clock : Nat → Timestamp) :
    (step : Nat) → List FlushedBatch → ProjectionCheckpoint → ProjectionCheckpoint
  | _, [], checkpoint                  => checkpoint
  | step, batch :: batches, checkpoint =>
    let progress   := BatchProgress.fromMarks batch
    let checkpoint :=
      checkpoint.advance progress.lastSourceAt progress.lastObjectId progress.written (clock step)
    advanceAll clock (step + 1) batches checkpoint
