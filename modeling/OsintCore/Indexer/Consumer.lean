import OsintCore.Control.Run
import OsintCore.Indexer.Service

namespace Indexer

inductive FlushReason
  | batchFull | timeout | shutdown
  deriving DecidableEq, Repr

-- Which event a document has been built for is known to the proofs only.
structure Batched where
  offset   : Nat
  document : SearchDocument

end Indexer

-- The stores, the partition of `entity.extracted`, and the process which reads from it.
structure IndexerSystem where
  store     : IndexerStore
  index     : SearchIndex
  -- A message which is no envelope has no payload.
  log       : List (Option Json)             := []
  committed : Nat                            := 0
  position  : Nat                            := 0
  last      : Option Nat                     := none
  batch     : List Indexer.Batched           := []
  openedAt  : Option Timestamp               := none
  reason    : Option Indexer.FlushReason     := none
  -- What the latest delivery of an event has led to, the documents of the flushes which returned
  -- `Ok`, those of the flushes which failed since the process started, and the fields of the
  -- documents in the index which the embedding worker has written.
  outcomes  : Nat → Option Indexer.PrepareOutcome := fun _ => none
  submitted : List Indexer.Batched                := []
  lost      : List Indexer.Batched                := []
  vectors   : Uuid → SearchSource                 := fun _ _ => none

namespace IndexerSystem

open Indexer

-- Between two actions of the process anything may happen to the stores and the partition.
inductive Action
  | write (store : IndexerStore)
  | embed (id : DocumentId) (fields : List (String × Json))
  | publish (message : Option Json)
  | receive (now : Timestamp) (fault : Option Fault)
  | timeout (now : Timestamp)
  | interrupt
  | flush (replies : Nat → BulkReply) (commits : Bool)
  | crash

variable (w : Indexer) (s : IndexerSystem)

def shouldFlush (now : Timestamp) : Option FlushReason :=
  if s.batch.isEmpty then none
  else if s.batch.length % 2 ^ 32 ≥ w.bounds.batchSize then some .batchFull
  else match s.openedAt with
    | none        => none
    | some opened => if now - opened ≥ w.bounds.batchTimeout then some .timeout else none

-- The fields of a document go with it.
def keptVectors (index : SearchIndex) : Uuid → SearchSource :=
  fun id => if (index id).isSome then s.vectors id else fun _ => none

def handleEnvelope (payload : Json) (now : Timestamp) (fault : Option Fault) :
    Except IndexerError PrepareOutcome × SearchIndex :=
  match documentIdFromPayload payload with
  | .error e => (.error e, s.index)
  | .ok id   => w.prepare s.store s.index id now fault

def push (now : Timestamp) (document : SearchDocument) : IndexerSystem :=
  { s with
    batch    := s.batch ++ [⟨s.position, document⟩]
    openedAt := s.openedAt <|> some now }

-- `remember_offset`
def advance : IndexerSystem :=
  { s with position := s.position + 1, last := some (s.position + 1) }

def handled (now : Timestamp) (outcome : Except IndexerError PrepareOutcome) (index : SearchIndex) :
    IndexerSystem :=
  let s := { s with
    index    := index
    vectors  := s.keptVectors index
    outcomes := Function.update s.outcomes s.position outcome.toOption }
  match outcome with
  | .ok (.ready document) => (s.push now document).advance
  | _                     => s.advance

-- A message which is no envelope is passed over without a trace.
def receive (now : Timestamp) (fault : Option Fault) : IndexerSystem :=
  match s.log[s.position]? with
  | none                => s
  | some none           =>
    { s with
      position := s.position + 1
      outcomes := Function.update s.outcomes s.position none }
  | some (some payload) =>
    let (outcome, index) := s.handleEnvelope w payload now fault
    let s := s.handled now outcome index
    { s with reason := s.shouldFlush w now }

def timeout (now : Timestamp) : IndexerSystem :=
  { s with reason := s.shouldFlush w now <|>
      if s.batch.isEmpty then none else some .timeout }

-- A commit which fails is passed over.
def commitLast (commits : Bool) : IndexerSystem :=
  if commits then { s with committed := s.last.getD s.committed } else s

def flushOnce (replies : Nat → BulkReply) (commits : Bool) : IndexerSystem :=
  match w.flush (s.batch.map (·.document)) replies s.index with
  | (.ok _, index)    =>
    { s with index, batch := [], submitted := s.submitted ++ s.batch }.commitLast commits
  | (.error _, index) => { s with index, batch := [], lost := s.lost ++ s.batch }

def restart : IndexerSystem :=
  { s with position := s.committed, last := none, batch := [], openedAt := none, reason := none,
           lost := [] }

-- The end of an iteration of the loop in which a reason to flush has come up.
def flushBatch (reason : FlushReason) (replies : Nat → BulkReply) (commits : Bool) :
    IndexerSystem :=
  if s.batch.isEmpty then if reason = .shutdown then s.commitLast commits else s
  else { s.flushOnce w replies commits with openedAt := none }

def conclude (reason : FlushReason) : IndexerSystem :=
  if reason = .shutdown then s.restart else { s with reason := none }

def embed (id : DocumentId) (fields : List (String × Json)) : IndexerSystem :=
  match s.index.updateFields id fields with
  | .error _  => s
  | .ok index =>
    { s with index, vectors := Function.update s.vectors id <| (s.vectors id).merge fields }

def step : Action → IndexerSystem
  | .write store           => { s with store }
  | .embed id fields       => s.embed id fields
  | .publish message       => { s with log := s.log ++ [message] }
  | .receive now fault     => if s.reason.isSome then s else s.receive w now fault
  | .timeout now           => if s.reason.isSome then s else s.timeout w now
  | .interrupt             => if s.reason.isSome then s else { s with reason := some .shutdown }
  | .flush replies commits =>
    match s.reason with
    | none        => s
    | some reason => (s.flushBatch w reason replies commits).conclude reason
  | .crash                 => s.restart

def run (l : List Action) : IndexerSystem :=
  l.foldl (step w) s

end IndexerSystem
