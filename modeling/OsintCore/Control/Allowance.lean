import Mathlib.Data.List.Perm.Basic
import Mathlib.Data.List.Sort
import Mathlib.Tactic

-- A selection from a list which takes every element that needs no allowance, and of those which do
-- only the first `n`.
namespace List

variable {α : Type} (p : α → Bool)

def admitted : Nat → List α → List α
  | _, []         => []
  | n, a :: l     =>
    if p a then
      match n with
      | 0     => admitted 0 l
      | n + 1 => a :: admitted n l
    else
      a :: admitted n l

def refused : Nat → List α → List α
  | _, []         => []
  | n, a :: l     =>
    if p a then
      match n with
      | 0     => a :: refused 0 l
      | n + 1 => refused n l
    else
      refused n l

variable {p} {n : Nat} {a : α} {l : List α}

theorem admitted_cons_neg (h : p a = false) : admitted p n (a :: l) = a :: admitted p n l := by
  simp [admitted, h]

theorem refused_cons_neg (h : p a = false) : refused p n (a :: l) = refused p n l := by
  simp [refused, h]

theorem admitted_cons_zero (h : p a) : admitted p 0 (a :: l) = admitted p 0 l := by
  simp [admitted, h]

theorem refused_cons_zero (h : p a) : refused p 0 (a :: l) = a :: refused p 0 l := by
  simp [refused, h]

theorem admitted_cons_succ (h : p a) : admitted p (n + 1) (a :: l) = a :: admitted p n l := by
  simp [admitted, h]

theorem refused_cons_succ (h : p a) : refused p (n + 1) (a :: l) = refused p n l := by
  simp [refused, h]

-- The ways in which the next element of the list is dealt with
theorem admitted_refused_cons (p : α → Bool) (n : Nat) (a : α) (l : List α) :
    (p a = false ∧ admitted p n (a :: l) = a :: admitted p n l ∧
      refused p n (a :: l) = refused p n l) ∨
    (p a ∧ n = 0 ∧ admitted p n (a :: l) = admitted p 0 l ∧
      refused p n (a :: l) = a :: refused p 0 l) ∨
    (p a ∧ ∃ m, n = m + 1 ∧ admitted p n (a :: l) = a :: admitted p m l ∧
      refused p n (a :: l) = refused p m l) := by
  cases h : p a
  case false => exact .inl ⟨rfl, admitted_cons_neg h, refused_cons_neg h⟩
  case true =>
    cases n
    case zero   => exact .inr <| .inl ⟨rfl, rfl, admitted_cons_zero h, refused_cons_zero h⟩
    case succ m => exact .inr <| .inr ⟨rfl, m, rfl, admitted_cons_succ h, refused_cons_succ h⟩

theorem admitted_append_refused_perm : (admitted p n l ++ refused p n l).Perm l := by
  induction l generalizing n
  case nil => rfl
  case cons a l hi =>
    rcases admitted_refused_cons p n a l with ⟨_, ha, hr⟩ | ⟨_, _, ha, hr⟩ | ⟨_, m, _, ha, hr⟩
    case inl     => exact ha ▸ hr ▸ hi.cons a
    case inr.inl => exact ha ▸ hr ▸ perm_middle.trans (hi.cons a)
    case inr.inr => exact ha ▸ hr ▸ hi.cons a

theorem admitted_sublist : (admitted p n l).Sublist l := by
  induction l generalizing n
  case nil => exact .slnil
  case cons a l hi =>
    rcases admitted_refused_cons p n a l with ⟨_, ha, _⟩ | ⟨_, _, ha, _⟩ | ⟨_, m, _, ha, _⟩
    case inl     => exact ha ▸ hi.cons_cons a
    case inr.inl => exact ha ▸ hi.cons a
    case inr.inr => exact ha ▸ hi.cons_cons a

theorem refused_sublist : (refused p n l).Sublist l := by
  induction l generalizing n
  case nil => exact .slnil
  case cons a l hi =>
    rcases admitted_refused_cons p n a l with ⟨_, _, hr⟩ | ⟨_, _, _, hr⟩ | ⟨_, m, _, _, hr⟩
    case inl     => exact hr ▸ hi.cons a
    case inr.inl => exact hr ▸ hi.cons_cons a
    case inr.inr => exact hr ▸ hi.cons a

theorem refused_needs (h : a ∈ refused p n l) : p a := by
  induction l generalizing n
  case nil => cases h
  case cons b l hi =>
    rcases admitted_refused_cons p n b l with ⟨_, _, hr⟩ | ⟨hb, _, _, hr⟩ | ⟨_, m, _, _, hr⟩
    case inl     => exact hi (hr ▸ h)
    case inr.inr => exact hi (hr ▸ h)
    case inr.inl =>
      obtain rfl | h := mem_cons.mp (hr ▸ h)
      case inl => exact hb
      case inr => exact hi h

theorem mem_admitted_of_free (hm : a ∈ l) (h : p a = false) : a ∈ admitted p n l := by
  have hm : a ∈ admitted p n l ++ refused p n l := admitted_append_refused_perm.mem_iff.mpr hm
  apply (mem_append.mp hm).resolve_right
  exact fun hr => by simp [refused_needs hr] at h

-- Once the allowance is used up, nothing which needs it is admitted.
theorem countP_admitted : (admitted p n l).countP p = min n (l.countP p) := by
  induction l generalizing n
  case nil => simp [admitted]
  case cons a l hi =>
    rcases admitted_refused_cons p n a l with ⟨hp, ha, _⟩ | ⟨hp, hn, ha, _⟩ | ⟨hp, m, hn, ha, _⟩
    case inl     => simp [ha, hi, hp]
    case inr.inl => rw [ha, hi, hn, Nat.zero_min, Nat.zero_min]
    case inr.inr =>
      rw [ha, countP_cons_of_pos hp, hi, hn, countP_cons_of_pos hp, Nat.succ_min_succ]

-- An admitted element which needs the allowance stands before every refused one.
theorem admitted_before_refused {R : α → α → Prop} (hs : l.Pairwise R) {b : α}
    (ha : a ∈ admitted p n l) (hp : p a) (hb : b ∈ refused p n l) : R a b := by
  induction l generalizing n
  case nil => cases ha
  case cons c l hi =>
    have ⟨hc, hl⟩ := pairwise_cons.mp hs
    rcases admitted_refused_cons p n c l with ⟨hpc, hac, hr⟩ | ⟨_, hn, hac, _⟩ | ⟨_, m, _, hac, hr⟩
    case inl =>
      rw [hac] at ha
      rw [hr] at hb
      obtain rfl | ha := mem_cons.mp ha
      case inl => simp [hpc] at hp
      case inr => exact hi hl ha hb
    case inr.inl =>
      have hz : (admitted p 0 l).countP p = 0 := by simp [countP_admitted]
      exact absurd hp <| countP_eq_zero.mp hz a (hac ▸ ha)
    case inr.inr =>
      rw [hac] at ha
      rw [hr] at hb
      obtain rfl | ha := mem_cons.mp ha
      case inl => exact hc b <| refused_sublist.subset hb
      case inr => exact hi hl ha hb

end List
