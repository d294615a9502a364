import Mathlib

-- What a thread holds while a guard is in scope: a permit of some kind, or a place in a counter.
inductive Guard (π κ : Type)
  | permit (p : π)
  | counter (c : κ)
  deriving DecidableEq

structure GuardPool (π κ : Type) where
  available : π → Nat
  counted   : κ → Nat

namespace GuardPool

variable {π κ : Type} [DecidableEq π] [DecidableEq κ]

def full (capacity : π → Nat) : GuardPool π κ where
  available := capacity
  counted _ := 0

-- A permit is only there if it is available, a counter can always be raised.
def take (pool : GuardPool π κ) : Guard π κ → Option (GuardPool π κ)
  | .permit p  =>
    if pool.available p = 0 then none
    else some { pool with available := Function.update pool.available p (pool.available p - 1) }
  | .counter c => some { pool with counted := Function.update pool.counted c (pool.counted c + 1) }

def drop (pool : GuardPool π κ) : Guard π κ → GuardPool π κ
  | .permit p  => { pool with available := Function.update pool.available p (pool.available p + 1) }
  | .counter c => { pool with counted := Function.update pool.counted c (pool.counted c - 1) }

-- The pool is what is left while the guards `gs` are held.
structure Balanced (pool : GuardPool π κ) (capacity : π → Nat) (gs : List (Guard π κ)) : Prop where
  available : ∀ p, pool.available p + gs.count (.permit p) = capacity p
  counted   : ∀ c, pool.counted c = gs.count (.counter c)

variable {pool pool' : GuardPool π κ} {capacity : π → Nat} {g : Guard π κ}
variable {gs gs' rest : List (Guard π κ)}

theorem balanced_full : (full capacity : GuardPool π κ).Balanced capacity [] where
  available _ := rfl
  counted _   := rfl

theorem take_eq_none (h : pool.take g = none) : ∃ p, g = .permit p ∧ pool.available p = 0 := by
  cases g
  case counter => cases h
  case permit p =>
    rw [take] at h
    split at h
    case isTrue hp => exact ⟨p, rfl, hp⟩
    case isFalse   => cases h

namespace Balanced

theorem perm (h : pool.Balanced capacity gs) (hp : gs.Perm gs') : pool.Balanced capacity gs' where
  available p := by rw [← hp.count_eq, h.available]
  counted c   := by rw [← hp.count_eq, h.counted]

theorem count_le (h : pool.Balanced capacity gs) (p : π) : gs.count (.permit p) ≤ capacity p := by
  have := h.available p
  omega

theorem eq_full (h : pool.Balanced capacity []) : pool = full capacity := by
  have ha : pool.available = capacity := funext h.available
  have hc : pool.counted = fun _ => 0 := funext h.counted
  cases pool
  subst ha hc
  rfl

theorem take (h : pool.Balanced capacity gs) (ht : pool.take g = some pool') :
    pool'.Balanced capacity (g :: gs) := by
  cases g
  case permit p =>
    rw [GuardPool.take] at ht
    split at ht
    case isTrue => cases ht
    case isFalse hp =>
      cases ht
      refine ⟨fun q => ?_, fun c => ?_⟩
      case refine_1 =>
        have hq := h.available q
        by_cases hpq : q = p
        case pos =>
          subst hpq
          simp only [Function.update_self, List.count_cons_self]
          omega
        case neg =>
          have hne : Guard.permit p ≠ (.permit q : Guard π κ) := fun he => hpq (by cases he; rfl)
          simpa [hpq, List.count_cons_of_ne hne] using hq
      case refine_2 =>
        have hne : Guard.permit p ≠ (.counter c : Guard π κ) := by simp
        simpa [List.count_cons_of_ne hne] using h.counted c
  case counter c =>
    cases ht
    refine ⟨fun p => ?_, fun d => ?_⟩
    case refine_1 =>
      have hne : Guard.counter c ≠ (.permit p : Guard π κ) := by simp
      simpa [List.count_cons_of_ne hne] using h.available p
    case refine_2 =>
      have hd := h.counted d
      by_cases hcd : d = c
      case pos =>
        subst hcd
        simp [hd]
      case neg =>
        have hne : Guard.counter c ≠ (.counter d : Guard π κ) := fun he => hcd (by cases he; rfl)
        simpa [hcd, List.count_cons_of_ne hne] using hd

theorem drop (h : pool.Balanced capacity (g :: gs)) : (pool.drop g).Balanced capacity gs := by
  cases g
  case permit p =>
    refine ⟨fun q => ?_, fun c => ?_⟩
    case refine_1 =>
      have hq := h.available q
      by_cases hpq : q = p
      case pos =>
        subst hpq
        rw [List.count_cons_self] at hq
        simp only [GuardPool.drop, Function.update_self]
        omega
      case neg =>
        have hne : Guard.permit p ≠ (.permit q : Guard π κ) := fun he => hpq (by cases he; rfl)
        rw [List.count_cons_of_ne hne] at hq
        simpa [GuardPool.drop, hpq] using hq
    case refine_2 =>
      have hne : Guard.permit p ≠ (.counter c : Guard π κ) := by simp
      have hc := h.counted c
      rwa [List.count_cons_of_ne hne] at hc
  case counter c =>
    refine ⟨fun p => ?_, fun d => ?_⟩
    case refine_1 =>
      have hne : Guard.counter c ≠ (.permit p : Guard π κ) := by simp
      have hp := h.available p
      rwa [List.count_cons_of_ne hne] at hp
    case refine_2 =>
      have hd := h.counted d
      by_cases hcd : d = c
      case pos =>
        subst hcd
        rw [List.count_cons_self] at hd
        simp [GuardPool.drop, hd]
      case neg =>
        have hne : Guard.counter c ≠ (.counter d : Guard π κ) := fun he => hcd (by cases he; rfl)
        rw [List.count_cons_of_ne hne] at hd
        simpa [GuardPool.drop, hcd] using hd

end Balanced

-- What one step of a thread may do with the pool and the guards which the thread has.
inductive Moves (pool : GuardPool π κ) (gs : List (Guard π κ)) :
    GuardPool π κ → List (Guard π κ) → Prop
  | keep : Moves pool gs pool gs
  | take {pool' : GuardPool π κ} {gs' : List (Guard π κ)} {g : Guard π κ}
    (taken : pool.take g = some pool') (held : gs'.Perm (g :: gs)) : Moves pool gs pool' gs'
  | drop {gs' : List (Guard π κ)} {g : Guard π κ} (held : gs.Perm (g :: gs')) :
    Moves pool gs (pool.drop g) gs'

theorem Balanced.moves (h : pool.Balanced capacity (gs ++ rest)) (hm : Moves pool gs pool' gs') :
    pool'.Balanced capacity (gs' ++ rest) := by
  cases hm
  case keep => exact h
  case take g ht hp => exact (h.take ht).perm <| (hp.append_right rest).symm
  case drop g hp => exact (h.perm <| hp.append_right rest).drop

end GuardPool

namespace List

variable {α β : Type} {f : α → List β} {l : List α} {i : Nat} {a : α}

theorem flatMap_set_perm (h : l[i]? = some a) : ∃ rest, (l.flatMap f).Perm (f a ++ rest) ∧
    ∀ b, ((l.set i b).flatMap f).Perm (f b ++ rest) := by
  induction l generalizing i
  case nil => cases h
  case cons c l hi =>
    cases i
    case zero =>
      cases h
      exact ⟨l.flatMap f, .refl _, fun b => .refl _⟩
    case succ i =>
      have ⟨rest, hl, hs⟩ := hi h
      have swap (b : α) : (f c ++ (f b ++ rest)).Perm (f b ++ (f c ++ rest)) := by
        rw [← append_assoc, ← append_assoc]
        exact perm_append_comm.append_right rest
      refine ⟨f c ++ rest, ?_, fun b => ?_⟩
      case refine_1 => exact (hl.append_left (f c)).trans (swap a)
      case refine_2 => exact ((hs b).append_left (f c)).trans (swap b)

end List
