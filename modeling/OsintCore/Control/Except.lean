import Mathlib

-- The message of a run which has been aborted.
structure Panic where
  message : String
  deriving DecidableEq, Repr

namespace Except

variable {ε ε' α β : Type}

theorem exists_of_isOk {x : Except ε α} (h : x.isOk) : ∃ a, x = .ok a := by
  cases x
  case error => cases h
  case ok a  => exact ⟨a, rfl⟩

@[simp]
theorem bind_eq_ok {x : Except ε α} {f : α → Except ε β} {b : β} :
    x >>= f = .ok b ↔ ∃ a, x = .ok a ∧ f a = .ok b := by
  cases x <;> simp [bind, Except.bind]

@[simp]
theorem bind_eq_error {x : Except ε α} {f : α → Except ε β} {e : ε} :
    x >>= f = .error e ↔ x = .error e ∨ ∃ a, x = .ok a ∧ f a = .error e := by
  cases x <;> simp [bind, Except.bind]

@[simp]
theorem map_eq_ok {x : Except ε α} {f : α → β} {b : β} :
    f <$> x = .ok b ↔ ∃ a, x = .ok a ∧ f a = b := by
  cases x <;> simp [Functor.map, Except.map]

@[simp]
theorem map_pure {a : α} {f : α → β} : (pure a : Except ε α).map f = .ok (f a) :=
  rfl

@[simp]
theorem pure_eq_ok {a b : α} : (pure a : Except ε α) = .ok b ↔ a = b := by
  simp [pure, Except.pure]

@[simp]
theorem pure_ne_error {a : α} {e : ε} : (pure a : Except ε α) ≠ .error e :=
  nofun

@[simp]
theorem throw_eq {e : ε} : (throw e : Except ε α) = .error e :=
  rfl

@[simp]
theorem mapError_eq_ok {x : Except ε α} {f : ε → ε'} {a : α} :
    x.mapError f = .ok a ↔ x = .ok a := by
  cases x <;> simp [Except.mapError]

@[simp]
theorem mapError_eq_error {x : Except ε α} {f : ε → ε'} {e : ε'} :
    x.mapError f = .error e ↔ ∃ e', x = .error e' ∧ f e' = e := by
  cases x <;> simp [Except.mapError]

-- Two runs which agree up to `f` are continued in ways which agree up to `g`.
theorem map_bind_congr {γ δ : Type} {x y : Except ε α} {f : α → γ} {k k' : α → Except ε β}
    {g : β → δ} (hx : x.map f = y.map f)
    (hk : ∀ a b, f a = f b → (k a).map g = (k' b).map g) :
    (x >>= k).map g = (y >>= k').map g := by
  cases x <;> cases y <;> simp only [Except.map, reduceCtorEq, error.injEq, ok.injEq] at hx
  case error.error => exact congrArg error hx
  case ok.ok a b   => exact hk a b hx

theorem of_forM {l : List α} {f : α → Except ε Unit} (h : l.forM f = .ok ()) :
    ∀ a ∈ l, f a = .ok () := by
  induction l
  case nil         => simp
  case cons a l hi =>
    have ⟨_, ha, hl⟩ := bind_eq_ok.mp h
    exact List.forall_mem_cons.mpr ⟨ha, hi hl⟩

-- `x` does not fail with an error that meets `P`.
def Never (P : ε → Prop) (x : Except ε α) : Prop :=
  ∀ e, P e → x ≠ .error e

theorem Never.ok {P : ε → Prop} {a : α} : (.ok a : Except ε α).Never P :=
  nofun

theorem Never.error {P : ε → Prop} {e : ε} (h : ¬P e) : (.error e : Except ε α).Never P := by
  intro e' hp he
  cases he
  exact h hp

theorem Never.bind {P : ε → Prop} {x : Except ε α} {f : α → Except ε β} (hx : x.Never P)
    (hf : ∀ a, x = .ok a → (f a).Never P) : (x >>= f).Never P := by
  intro e hp he
  obtain he | ⟨a, ha, he⟩ := bind_eq_error.mp he
  · exact hx e hp he
  · exact hf a ha e hp he

end Except

namespace Option

variable {α β : Type} {f : α → Option β}

theorem mapM_eq_some {l : List α} {l' : List β} :
    l.mapM f = some l' ↔ List.Forall₂ (fun a b => f a = some b) l l' := by
  induction l generalizing l'
  case nil         => simp [eq_comm]
  case cons a l hi =>
    simp only [List.mapM_cons, bind_eq_bind, bind_eq_some_iff, List.forall₂_cons_left_iff, hi]
    constructor
    case mp  => exact fun ⟨b, hb, l', hl, h⟩ => ⟨b, l', hb, hl, by simpa using h.symm⟩
    case mpr => exact fun ⟨b, l', hb, hl, h⟩ => ⟨b, hb, l', hl, h ▸ rfl⟩

theorem isSome_mapM {l : List α} : (l.mapM f).isSome ↔ ∀ a ∈ l, (f a).isSome := by
  induction l
  case nil         => simp
  case cons a l hi =>
    rw [List.forall_mem_cons, ← hi, List.mapM_cons]
    cases f a <;> cases l.mapM f <;> simp

end Option
