import OsintCore.Control.Resumption
import OsintCore.Control.Run

namespace Resumption

variable {σ ε ε' α β : Type} {s : σ}

-- The next access of a program. A program which has ended does nothing any more.
def advance : Resumption σ ε α → σ → σ × Resumption σ ε α
  | done a, s          => (s, done a)
  | fail e, s          => (s, fail e)
  | step write next, s => (write s, next s)

section Advance

variable {x : Resumption σ ε α} {f : α → Resumption σ ε β}

@[simp]
theorem advance_done {a : α} : (done a : Resumption σ ε α).advance s = (s, done a) :=
  rfl

@[simp]
theorem advance_fail {e : ε} : (fail e : Resumption σ ε α).advance s = (s, fail e) :=
  rfl

@[simp]
theorem advance_step {write : σ → σ} {next : σ → Resumption σ ε α} :
    (step write next).advance s = (write s, next s) :=
  rfl

@[simp]
theorem advance_read_bind {g : σ → α} : (read g >>= f).advance s = (s, f (g s)) :=
  rfl

theorem advance_attempt_bind {g : σ → Except ε' σ} {f : Except ε' Unit → Resumption σ ε β} :
    (attempt g >>= f).advance s = match g s with
      | .ok s'   => (s', f (.ok ()))
      | .error e => (s, f (.error e)) := by
  change ((g s).toOption.getD s, f ((g s).map fun _ => ())) = _
  cases g s <;> rfl

theorem advance_write_bind {g : σ → Except ε σ} {f : Unit → Resumption σ ε β} :
    (write g >>= f).advance s = match g s with
      | .ok s'   => (s', f ())
      | .error e => (s, fail e) := by
  rw [write, bind_assoc, advance_attempt_bind]
  cases g s <;> rfl

end Advance

-- Up to a program which satisfies `P`, the program does nothing but read.
inductive ReadsUntil (P : Resumption σ ε α → Prop) : Resumption σ ε α → Prop
  | reached {x : Resumption σ ε α} (holds : P x) : ReadsUntil P x
  | done {a : α} : ReadsUntil P (done a)
  | fail {e : ε} : ReadsUntil P (fail e)
  | step {write : σ → σ} {next : σ → Resumption σ ε α} (reads : ∀ s, write s = s)
    (continues : ∀ s, ReadsUntil P (next s)) : ReadsUntil P (step write next)

section ReadsUntil

variable {P : Resumption σ ε β → Prop} {x : Resumption σ ε α} {f : α → Resumption σ ε β}

theorem ReadOnly.readsUntil (hx : x.ReadOnly) (hf : ∀ a, (f a).ReadsUntil P) :
    (x >>= f).ReadsUntil P := by
  induction x
  case done a => exact hf a
  case fail => exact .fail
  case step write next hi => exact .step hx.left fun s => hi s (hx.right s)

theorem readsUntil_read_bind {g : σ → α} (hf : ∀ s, (f (g s)).ReadsUntil P) :
    (read g >>= f).ReadsUntil P :=
  .step (fun _ => rfl) hf

theorem ReadsUntil.advance {x : Resumption σ ε β} (hx : x.ReadsUntil P) :
    P x ∨ (x.advance s).fst = s ∧ (x.advance s).snd.ReadsUntil P := by
  cases hx
  case reached h  => exact .inl h
  case done       => exact .inr ⟨rfl, .done⟩
  case fail       => exact .inr ⟨rfl, .fail⟩
  case step hw hn => exact .inr ⟨hw s, hn s⟩

end ReadsUntil

end Resumption

-- Programs which take turns on a shared state.
structure Pool (ι σ ε α : Type) where
  shared   : σ
  programs : ι → Resumption σ ε α

namespace Pool

variable {ι σ ε α : Type} [DecidableEq ι] {p : Pool ι σ ε α} {i : ι}

def step (p : Pool ι σ ε α) (i : ι) : Pool ι σ ε α where
  shared   := ((p.programs i).advance p.shared).fst
  programs := Function.update p.programs i ((p.programs i).advance p.shared).snd

-- Which program makes the next access is up to the schedule.
def run (p : Pool ι σ ε α) (schedule : List ι) : Pool ι σ ε α :=
  schedule.foldl step p

@[simp]
theorem run_nil : p.run [] = p :=
  rfl

@[simp]
theorem run_cons {l : List ι} : p.run (i :: l) = (p.step i).run l :=
  rfl

-- What holds of each program is kept by a step if the program which takes it establishes it for
-- itself and the others do not lose it.
theorem step_forall {A : ι → Resumption σ ε α → σ → Prop}
    (own : A i ((p.programs i).advance p.shared).snd ((p.programs i).advance p.shared).fst)
    (others : ∀ j, j ≠ i → A j (p.programs j) ((p.programs i).advance p.shared).fst) :
    ∀ j, A j ((p.step i).programs j) (p.step i).shared := by
  intro j
  by_cases h : j = i
  case pos =>
    subst h
    simpa [step] using own
  case neg => simpa [step, h] using others j h

-- A program which takes all the turns ends as it does on its own.
theorem run_alone (p : Pool ι σ ε α) (i : ι) : ∃ n, (p.run (List.replicate n i)).shared =
    (p.programs i).exec p.shared := by
  have h (x : Resumption σ ε α) : ∀ p : Pool ι σ ε α, p.programs i = x →
      ∃ n, (p.run (List.replicate n i)).shared = x.exec p.shared := by
    induction x
    case done => exact fun p _ => ⟨0, rfl⟩
    case fail => exact fun p _ => ⟨0, rfl⟩
    case step write next hi =>
      intro p hp
      have ⟨n, hn⟩ := hi p.shared (p.step i) (by simp [step, hp])
      refine ⟨n + 1, hn.trans ?_⟩
      simp [step, hp, Resumption.exec, Resumption.run]
  exact h _ p rfl

end Pool
