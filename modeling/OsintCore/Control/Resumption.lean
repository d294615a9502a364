import OsintCore.Control.Fold

-- A program which shares its state `σ` with others: it is interrupted after each access. What it has
-- written stays written, also if it fails later on.
inductive Resumption (σ ε α : Type)
  | done (a : α)
  | fail (e : ε)
  | step (write : σ → σ) (next : σ → Resumption σ ε α)

namespace Resumption

variable {σ ε ε' α β γ : Type}

def bind (f : α → Resumption σ ε β) : Resumption σ ε α → Resumption σ ε β
  | done a          => f a
  | fail e          => fail e
  | step write next => step write fun s => (next s).bind f

instance : Monad (Resumption σ ε) where
  pure     := done
  bind x f := x.bind f

instance : LawfulMonad (Resumption σ ε) :=
  .mk' _ (fun x => by
    change x.bind done = x
    induction x
    case done => rfl
    case fail => rfl
    case step hi => exact congrArg _ (funext hi))
  (fun _ _ => rfl)
  (fun x f g => by
    change (x.bind f).bind g = x.bind fun a => (f a).bind g
    induction x
    case done => rfl
    case fail => rfl
    case step hi => exact congrArg _ (funext hi))

def read (f : σ → α) : Resumption σ ε α :=
  step id fun s => done (f s)

def ofExcept : Except ε α → Resumption σ ε α
  | .ok a    => done a
  | .error e => fail e

-- A write which may be refused.
def attempt (f : σ → Except ε' σ) : Resumption σ ε (Except ε' Unit) :=
  step (fun s => (f s).toOption.getD s) fun s => done (f s |>.map fun _ => ())

-- A write whose refusal is a failure.
def write (f : σ → Except ε σ) : Resumption σ ε Unit :=
  attempt f >>= fun
    | .ok ()   => done ()
    | .error e => fail e

-- A failure is told instead of passed on.
def outcome : Resumption σ ε α → Resumption σ ε' (Except ε α)
  | done a          => done (.ok a)
  | fail e          => done (.error e)
  | step write next => step write fun s => (next s).outcome

-- The program is run on its own.
def run : Resumption σ ε α → σ → Except ε α × σ
  | done a, s          => (.ok a, s)
  | fail e, s          => (.error e, s)
  | step write next, s => (next s).run (write s)

-- The state in which a run on its own ends.
def exec (x : Resumption σ ε α) (s : σ) : σ :=
  x.run s |>.snd

-- Run on its own from `s`, the program ends as `Q` says, or as `E` says if it fails.
def Ensures (x : Resumption σ ε α) (s : σ) (Q : α → σ → Prop) (E : ε → σ → Prop) : Prop :=
  match x.run s with
  | (.ok a, s')    => Q a s'
  | (.error e, s') => E e s'

variable {x : Resumption σ ε α} {f : α → Resumption σ ε β} {s : σ}

theorem run_bind : (x >>= f).run s =
    match x.run s with
    | (.ok a, s')    => (f a).run s'
    | (.error e, s') => (.error e, s') := by
  induction x generalizing s
  case done => rfl
  case fail => rfl
  case step write next hi => exact hi s

@[simp]
theorem run_read {f : σ → α} : (read f : Resumption σ ε α).run s = (.ok (f s), s) :=
  rfl

theorem outcome_bind : (x >>= f).outcome = (x.outcome >>= fun
    | .ok a    => (f a).outcome
    | .error e => done (.error e) : Resumption σ ε' (Except ε β)) := by
  induction x
  case done => rfl
  case fail => rfl
  case step write next hi => exact congrArg (step write) (funext hi)

theorem run_write {f : σ → Except ε σ} : (write f).run s =
    match f s with
    | .ok s'   => (.ok (), s')
    | .error e => (.error e, s) := by
  cases h : f s <;> simp [write, attempt, run_bind, run, h, Except.toOption, Except.map]

section Ensures

variable {Q Q' : α → σ → Prop} {E E' : ε → σ → Prop} {R : β → σ → Prop}

@[simp]
theorem ensures_done {a : α} : (done a : Resumption σ ε α).Ensures s Q E ↔ Q a s :=
  .rfl

@[simp]
theorem ensures_pure {a : α} : (pure a : Resumption σ ε α).Ensures s Q E ↔ Q a s :=
  .rfl

@[simp]
theorem ensures_fail {e : ε} : (fail e : Resumption σ ε α).Ensures s Q E ↔ E e s :=
  .rfl

@[simp]
theorem ensures_bind : (x >>= f).Ensures s R E ↔ x.Ensures s (fun a s' => (f a).Ensures s' R E) E := by
  simp only [Ensures, run_bind]
  rcases x.run s with ⟨_ | _, s'⟩ <;> rfl

@[simp]
theorem ensures_read {f : σ → α} : (read f : Resumption σ ε α).Ensures s Q E ↔ Q (f s) s :=
  .rfl

@[simp]
theorem ensures_ofExcept {r : Except ε α} : (ofExcept r).Ensures s Q E ↔
    (∀ a, r = .ok a → Q a s) ∧ ∀ e, r = .error e → E e s := by
  cases r <;> simp [ofExcept]

theorem ensures_ite {p : Prop} [Decidable p] {x y : Resumption σ ε α} :
    (if p then x else y).Ensures s Q E ↔ (p → x.Ensures s Q E) ∧ (¬p → y.Ensures s Q E) := by
  by_cases h : p <;> simp [h]

theorem ensures_dite {p : Prop} [Decidable p] {x : p → Resumption σ ε α}
    {y : ¬p → Resumption σ ε α} : (if h : p then x h else y h).Ensures s Q E ↔
      (∀ h, (x h).Ensures s Q E) ∧ ∀ h, (y h).Ensures s Q E := by
  by_cases h : p <;> simp [h]

theorem ensures_attempt {f : σ → Except ε' σ} {Q : Except ε' Unit → σ → Prop} :
    (attempt f : Resumption σ ε _).Ensures s Q E ↔
      (∀ s', f s = .ok s' → Q (.ok ()) s') ∧ ∀ e, f s = .error e → Q (.error e) s := by
  cases h : f s <;> simp [attempt, Ensures, run, h, Except.toOption, Except.map]

theorem ensures_write {f : σ → Except ε σ} {Q : Unit → σ → Prop} :
    (write f).Ensures s Q E ↔ (∀ s', f s = .ok s' → Q () s') ∧ ∀ e, f s = .error e → E e s := by
  simp [write, ensures_attempt]

theorem Ensures.mono (h : x.Ensures s Q E) (hq : ∀ a s', Q a s' → Q' a s')
    (he : ∀ e s', E e s' → E' e s') : x.Ensures s Q' E' := by
  unfold Ensures at *
  split at h
  case h_1 => exact hq _ _ h
  case h_2 => exact he _ _ h

theorem ensures_outcome {Q : Except ε α → σ → Prop} {E : ε' → σ → Prop} :
    (x.outcome : Resumption σ ε' _).Ensures s Q E ↔
      x.Ensures s (fun a => Q (.ok a)) fun e => Q (.error e) := by
  induction x generalizing s
  case done => rfl
  case fail => rfl
  case step write next hi => exact hi _

-- The two outcomes lead to one property of the state in the end.
theorem Ensures.exec {P : σ → Prop} (h : x.Ensures s (fun _ => P) fun _ => P) : P (x.exec s) := by
  unfold Ensures at h
  unfold Resumption.exec
  split at h
  case h_1 hr => rwa [hr]
  case h_2 hr => rwa [hr]

theorem Ensures.error {e : ε} (h : x.Ensures s Q E) (he : (x.run s).fst = .error e) :
    E e (x.exec s) := by
  unfold Ensures at h
  unfold Resumption.exec
  split at h
  case h_1 hr => simp [hr] at he
  case h_2 hr =>
    rw [hr] at he ⊢
    cases he
    exact h

theorem Ensures.exists_ok (h : x.Ensures s Q fun _ _ => False) :
    ∃ a s', x.run s = (.ok a, s') ∧ Q a s' := by
  unfold Ensures at h
  split at h
  case h_1 a s' hr => exact ⟨a, s', hr, h⟩
  case h_2         => exact h.elim

theorem Ensures.of_run {a : α} {s' : σ} (h : x.run s = (.ok a, s')) (hq : Q a s') :
    x.Ensures s Q E := by
  unfold Ensures
  rwa [h]

-- The invariant speaks about the elements which the loop has not reached yet.
theorem ensures_foldlM {f : β → γ → Resumption σ ε β} {l : List γ} {b : β}
    {I : List γ → β → σ → Prop} {E : ε → σ → Prop} (h : I l b s)
    (hs : ∀ c l b s, I (c :: l) b s → (f b c).Ensures s (I l) E) :
    (l.foldlM f b).Ensures s (I []) E := by
  induction l generalizing b s
  case nil => exact h
  case cons c l hi =>
    rw [List.foldlM_cons, ensures_bind]
    exact (hs c l b s h).mono (fun _ _ h => hi h) fun _ _ h => h

end Ensures

section ReadOnly

def ReadOnly : Resumption σ ε α → Prop
  | done _          => True
  | fail _          => True
  | step write next => (∀ s, write s = s) ∧ ∀ s, (next s).ReadOnly

@[simp]
theorem readOnly_pure {a : α} : (pure a : Resumption σ ε α).ReadOnly :=
  trivial

@[simp]
theorem readOnly_fail {e : ε} : (fail e : Resumption σ ε α).ReadOnly :=
  trivial

@[simp]
theorem readOnly_read {f : σ → α} : (read f : Resumption σ ε α).ReadOnly :=
  ⟨fun _ => rfl, fun _ => trivial⟩

@[simp]
theorem readOnly_ofExcept {r : Except ε α} : (ofExcept r : Resumption σ ε α).ReadOnly := by
  cases r <;> trivial

theorem ReadOnly.bind (hx : x.ReadOnly) (hf : ∀ a, (f a).ReadOnly) : (x >>= f).ReadOnly := by
  induction x
  case done a => exact hf a
  case fail => trivial
  case step write next hi => exact ⟨hx.left, fun s => hi s (hx.right s)⟩

theorem ReadOnly.map {f : α → β} (hx : x.ReadOnly) : (f <$> x).ReadOnly :=
  hx.bind fun _ => trivial

theorem ReadOnly.foldlM {f : β → γ → Resumption σ ε β} {l : List γ} {b : β}
    (hf : ∀ b c, (f b c).ReadOnly) : (l.foldlM f b).ReadOnly := by
  induction l generalizing b
  case nil         => trivial
  case cons c l hi => exact (hf b c).bind fun _ => hi

theorem ReadOnly.forM {f : γ → Resumption σ ε PUnit} {l : List γ} (hf : ∀ c, (f c).ReadOnly) :
    (l.forM f).ReadOnly := by
  induction l
  case nil         => trivial
  case cons c l hi => exact (hf c).bind fun _ => hi

theorem ReadOnly.outcome (hx : x.ReadOnly) :
    (x.outcome : Resumption σ ε' (Except ε α)).ReadOnly := by
  induction x
  case done => trivial
  case fail => trivial
  case step write next hi => exact ⟨hx.left, fun s => hi s (hx.right s)⟩

theorem ReadOnly.ensures (hx : x.ReadOnly) :
    x.Ensures s (fun _ s' => s' = s) fun _ s' => s' = s := by
  induction x generalizing s
  case done => rfl
  case fail => rfl
  case step write next hi =>
    unfold Ensures run
    rw [hx.left]
    exact hi s (hx.right s)

end ReadOnly

section Yields

-- Whatever the program reads, what it returns is as `Q` says.
def Yields (Q : α → Prop) : Resumption σ ε α → Prop
  | done a       => Q a
  | fail _       => True
  | step _ next  => ∀ s, (next s).Yields Q

variable {P Q : α → Prop} {R : β → Prop}

@[simp]
theorem yields_fail {e : ε} : (fail e : Resumption σ ε α).Yields Q :=
  trivial

theorem yields_ofExcept {r : Except ε α} (h : ∀ a, r = .ok a → Q a) :
    (ofExcept r : Resumption σ ε α).Yields Q := by
  cases r
  case error => trivial
  case ok a  => exact h a rfl

theorem yields_true : x.Yields fun _ => True := by
  induction x
  case done       => trivial
  case fail       => trivial
  case step hi    => exact hi

theorem Yields.bind (hx : x.Yields Q) (hf : ∀ a, Q a → (f a).Yields R) : (x >>= f).Yields R := by
  induction x
  case done a  => exact hf a hx
  case fail    => trivial
  case step hi => exact fun s => hi s (hx s)

theorem Yields.outcome (hx : x.Yields Q) :
    (x.outcome : Resumption σ ε' _).Yields fun r => ∀ a, r = .ok a → Q a := by
  induction x
  case done a  => intro _ h; cases h; exact hx
  case fail    => nofun
  case step hi => exact fun s => hi s (hx s)

end Yields

end Resumption
