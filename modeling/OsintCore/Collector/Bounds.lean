import OsintCore.Control.Run
import OsintCore.Objects.Text

-- How far a call of `acquire` has come: it waits for a slot, waits for the map of the domains,
-- holds the map, or waits for its domain. A permit which is dropped has given its slot back first.
inductive AcquireStage
  | slot | map | lookup | domain | running | closing | gone
  deriving DecidableEq, Repr

structure RunCall where
  domain : String
  stage  : AcquireStage
  deriving DecidableEq, Repr

-- A semaphore is known by the number of its free permits. Which of the calls that wait for one gets
-- it is left open.
structure RunBounds where
  globalLimit    : Nat
  perDomainLimit : Nat
  global         : Nat
  perDomain      : String → Option Nat
  locked         : Option Nat
  calls          : List RunCall

inductive RunEvent
  | acquire (domain : String)
  | advance (i : Nat)
  | cancel (i : Nat)
  | release (i : Nat)
  deriving DecidableEq, Repr

namespace RunBounds

def new (globalInflight perDomainInflight : UInt32) : RunBounds where
  globalLimit    := max globalInflight.toNat 1
  perDomainLimit := max perDomainInflight.toNat 1
  global         := max globalInflight.toNat 1
  perDomain      := fun _ => none
  locked         := none
  calls          := []

-- Nothing depends on how it is computed, which is not to be tried out.
@[irreducible]
def domainKey (domain : String) : String :=
  Text.toAsciiLowercase <| Text.trimEndMatches '.' <| Text.trim domain

variable (s : RunBounds)

-- The free permits of a domain; its semaphore is made when it is first asked for.
def permits (key : String) : Nat :=
  (s.perDomain key).getD s.perDomainLimit

def setPermits (key : String) (n : Nat) : RunBounds :=
  { s with perDomain := Function.update s.perDomain key (some n) }

def moveTo (i : Nat) (c : RunCall) (stage : AcquireStage) : RunBounds :=
  { s with calls := s.calls.set i { c with stage } }

-- What the call does when it is polled. One whose permit is not there waits on.
def advance (i : Nat) (c : RunCall) : RunBounds :=
  match c.stage with
  | .slot   => if 0 < s.global then { s with global := s.global - 1 }.moveTo i c .map else s
  | .map    => if s.locked.isNone then { s with locked := some i }.moveTo i c .lookup else s
  | .lookup =>
    let key := domainKey c.domain
    { s.setPermits key (s.permits key) with locked := none }.moveTo i c .domain
  | .domain =>
    let key := domainKey c.domain
    if 0 < s.permits key then s.setPermits key (s.permits key - 1) |>.moveTo i c .running else s
  | .running | .closing | .gone => s

-- The future of the call is dropped with what it has got.
def cancel (i : Nat) (c : RunCall) : RunBounds :=
  match c.stage with
  | .slot          => s.moveTo i c .gone
  | .map | .domain => { s with global := s.global + 1 }.moveTo i c .gone
  | .lookup        => { s with global := s.global + 1, locked := none }.moveTo i c .gone
  | .running | .closing | .gone => s

-- The fields of a `RunPermit` are dropped in their order.
def release (i : Nat) (c : RunCall) : RunBounds :=
  match c.stage with
  | .running => { s with global := s.global + 1 }.moveTo i c .closing
  | .closing =>
    let key := domainKey c.domain
    s.setPermits key (s.permits key + 1) |>.moveTo i c .gone
  | .slot | .map | .lookup | .domain | .gone => s

def step : RunEvent → RunBounds
  | .acquire domain => { s with calls := s.calls ++ [⟨domain, .slot⟩] }
  | .advance i      => s.calls[i]?.elim s (s.advance i)
  | .cancel i       => s.calls[i]?.elim s (s.cancel i)
  | .release i      => s.calls[i]?.elim s (s.release i)

def run (events : List RunEvent) : RunBounds :=
  events.foldl step s

end RunBounds
