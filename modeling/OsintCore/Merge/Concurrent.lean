import OsintCore.Merge.Service

-- Calls of `executeMerge` which run at the same time. A call reads the survivor and the merged entity
-- one after the other, outside of any transaction, and then runs its transaction. Transactions are
-- serial, so that the one of a call is a single step.
namespace Merge

structure Call where
  survivorId : EntityId
  mergedId   : EntityId
  ctx        : Context

-- How far a call has got, and which rows it holds.
inductive Call.State
  | start
  | survivor (survivor : Entity)
  | ready (survivor merged : Entity)
  | done (history : MergeHistory)
  | failed (e : MergeError)

namespace Call

variable (c : Call)

def readSurvivor (db : Store) : Except MergeError Entity := do
  if c.survivorId = c.mergedId then
    throw (.selfMerge c.survivorId)
  requireEntity db c.survivorId

def readMerged (db : Store) (survivor : Entity) : Except MergeError Entity := do
  let merged ← requireEntity db c.mergedId
  checkEntities survivor merged
  return merged

-- The next step of the call. A transaction which fails is rolled back.
def advance (db : Store) : State → Store × State
  | .start =>
    match c.readSurvivor db with
    | .ok survivor => (db, .survivor survivor)
    | .error e     => (db, .failed e)
  | .survivor survivor =>
    match c.readMerged db survivor with
    | .ok merged => (db, .ready survivor merged)
    | .error e   => (db, .failed e)
  | .ready survivor merged =>
    match executeInTx db survivor merged c.ctx with
    | .ok (db, history, _) => (db, .done history)
    | .error e             => (db, .failed e)
  | s => (db, s)

end Call

structure System (ι : Type) where
  db     : Store
  states : ι → Call.State

namespace System

variable {ι : Type} [DecidableEq ι]

def init (σ : Store) : System ι where
  db     := σ
  states := fun _ => .start

def step (calls : ι → Call) (s : System ι) (i : ι) : System ι where
  db     := (calls i).advance s.db (s.states i) |>.fst
  states := Function.update s.states i ((calls i).advance s.db (s.states i)).snd

-- The calls take turns as the schedule says.
def run (calls : ι → Call) (σ : Store) (schedule : List ι) : System ι :=
  schedule.foldl (step calls) (init σ)

end System

end Merge
