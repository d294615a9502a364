import OsintCore.Control.Resumption

-- A call of a service which fails may have taken effect nevertheless.
inductive Fault (φ : Type)
  | lost (e : φ)
  | unacknowledged (e : φ)
  deriving DecidableEq

-- A state whose next calls are answered as planned: the `n`-th from now fails if `plan n` is some
-- fault.
structure Faulty (σ φ : Type) where
  state : σ
  plan  : Nat → Option (Fault φ)

namespace Fault

variable {φ : Type}

def error : Fault φ → φ
  | lost e           => e
  | unacknowledged e => e

def isLost : Fault φ → Bool
  | lost _           => true
  | unacknowledged _ => false

end Fault

namespace Faulty

variable {σ φ : Type} (s : Faulty σ φ)

def next (state : σ) : Faulty σ φ where
  state := state
  plan  := fun n => s.plan (n + 1)

def access (write : σ → σ) : Faulty σ φ :=
  s.next <|
    match s.plan 0 with
    | some (.lost _) => s.state
    | _              => write s.state

end Faulty

namespace Resumption

variable {σ ε φ α β : Type}

-- Each access may fail, and then the program does, too.
def faulty : Resumption σ ε α → Resumption (Faulty σ φ) (φ ⊕ ε) α
  | done a          => done a
  | fail e          => fail (.inr e)
  | step write next => step (·.access write) fun s =>
    match s.plan 0 with
    | none       => (next s.state).faulty
    | some fault => fail (.inl fault.error)

variable {x : Resumption σ ε α} {f : α → Resumption σ ε β} {s : Faulty σ φ}

@[simp]
theorem run_faulty_pure {a : α} : (pure a : Resumption σ ε α).faulty.run s = (.ok a, s) :=
  rfl

@[simp]
theorem run_faulty_fail {e : ε} : (fail e : Resumption σ ε α).faulty.run s = (.error (.inr e), s) :=
  rfl

theorem faulty_bind :
    (x >>= f).faulty = (x.faulty >>= fun a => (f a).faulty : Resumption _ (φ ⊕ ε) β) := by
  induction x
  case done => rfl
  case fail => rfl
  case step write next hi =>
    refine congrArg (step _) (funext fun s => ?_)
    change (match s.plan 0 with | none => _ | some _ => _) = bind _ (match s.plan 0 with
      | none => _ | some _ => _)
    cases s.plan 0
    case none       => exact hi s.state
    case some fault => rfl

theorem run_faulty_bind : (x >>= f).faulty.run s =
    match x.faulty.run s with
    | (.ok a, s')    => (f a).faulty.run s'
    | (.error e, s') => (.error e, s') := by
  rw [faulty_bind, run_bind]
  rcases x.faulty.run s with ⟨_ | _, _⟩ <;> rfl

theorem run_faulty_step {write : σ → σ} {next : σ → Resumption σ ε α} :
    (step write next).faulty.run s =
      match s.plan 0 with
      | none                          => (next s.state).faulty.run (s.next (write s.state))
      | some (.lost e)                => (.error (.inl e), s.next s.state)
      | some (.unacknowledged e)      => (.error (.inl e), s.next (write s.state)) := by
  simp only [faulty, run, Faulty.access]
  rcases s.plan 0 with _ | _ | _ <;> rfl

-- A run which is answered has not met any fault.
theorem run_of_faulty {a : α} {s' : Faulty σ φ} (h : x.faulty.run s = (.ok a, s')) :
    x.run s.state = (.ok a, s'.state) := by
  induction x generalizing s
  case done => cases h; rfl
  case fail => cases h
  case step write next hi =>
    rw [run_faulty_step] at h
    split at h
    case h_1 => exact hi _ h
    all_goals cases h

theorem run_faulty_read {f : σ → α} : (read f : Resumption σ ε α).faulty.run s =
    match s.plan 0 with
    | none       => (.ok (f s.state), s.next s.state)
    | some fault => (.error (.inl fault.error), s.next s.state) := by
  rw [read, run_faulty_step]
  rcases s.plan 0 with _ | _ | _ <;> rfl

end Resumption
