import OsintCore.Control.SortBy

namespace Hybrid

def u32Max : Nat := 2 ^ 32 - 1

def rrfK : Rat := 60

structure Hit where
  id         : String
  bm25Rank   : Option Nat := none
  vectorRank : Option Nat := none
  deriving DecidableEq, Repr

structure FusedHit extends Hit where
  score : Rat
  deriving DecidableEq, Repr

-- The entry of an identifier, which is made if it is not there.
def entry (ranks : List Hit) (id : String) (f : Hit → Hit) : List Hit :=
  if ranks.any (·.id = id) then
    ranks.map fun hit => if hit.id = id then f hit else hit
  else
    ranks ++ [f { id }]

-- A position counts from one, and stops at the end of its type.
def rankAt (i : Nat) : Nat :=
  min (i + 1) u32Max

def rankBm25 (ranks : List Hit) (item : String × Nat) : List Hit :=
  entry ranks item.fst fun hit =>
    if hit.bm25Rank.isNone then { hit with bm25Rank := some (rankAt item.snd) } else hit

def rankVector (ranks : List Hit) (item : String × Nat) : List Hit :=
  entry ranks item.fst fun hit =>
    if hit.vectorRank.isNone then { hit with vectorRank := some (rankAt item.snd) } else hit

def ranksOf (bm25 vector : List String) : List Hit :=
  vector.zipIdx.foldl rankVector (bm25.zipIdx.foldl rankBm25 [])

def share (weight : Rat) (rank : Option Nat) : Rat :=
  rank.elim 0 fun rank => weight / (rrfK + rank)

def fusedHit (bm25Weight vectorWeight : Rat) (hit : Hit) : FusedHit :=
  { hit with score := share bm25Weight hit.bm25Rank + share vectorWeight hit.vectorRank }

-- The best score comes first, and among equal ones the smaller identifier.
def fusedOrder (a b : FusedHit) : Ordering :=
  (compare b.score a.score).then (compare a.id b.id)

def sortFused (hits : List FusedHit) : List FusedHit :=
  hits.sortBy fusedOrder

-- In which order a hash map lists its entries is open. Here it is the one in which they were made.
def fuseRanks (bm25 vector : List String) (bm25Weight vectorWeight : Rat) : List FusedHit :=
  sortFused <| (ranksOf bm25 vector).map (fusedHit bm25Weight vectorWeight)

end Hybrid
