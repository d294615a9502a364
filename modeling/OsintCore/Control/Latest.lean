import Mathlib

-- A time, if there is one, and whose time it is.
structure Stamp (τ ι : Type) where
  time   : Option τ
  holder : ι

namespace Stamp

variable {τ ι : Type} [LinearOrder τ]

-- No time is before every time.
def key (s : Stamp τ ι) : WithBot τ :=
  s.time

-- A stamp gives way to a strictly later one only.
def later (a b : Stamp τ ι) : Stamp τ ι :=
  if a.key < b.key then b else a

variable {a b c s : Stamp τ ι} {l l' : List (Stamp τ ι)}

theorem later_eq_or : a.later b = a ∨ a.later b = b := by
  rw [later]
  split
  case isTrue  => exact .inr rfl
  case isFalse => exact .inl rfl

theorem le_later_left : a.key ≤ (a.later b).key := by
  rw [later]
  split
  case isTrue h => exact h.le
  case isFalse  => exact le_rfl

theorem le_later_right : b.key ≤ (a.later b).key := by
  rw [later]
  split
  case isTrue    => exact le_rfl
  case isFalse h => exact not_lt.mp h

theorem later_of_le (h : b.key ≤ a.key) : a.later b = a :=
  if_neg h.not_gt

theorem later_assoc : (a.later b).later c = a.later (b.later c) := by
  by_cases hbc : b.key < c.key
  case pos =>
    rw [later.eq_def b c, if_pos hbc]
    cases later_eq_or (a := a) (b := b)
    case inl h => rw [h]
    case inr h =>
      have hac : a.key < c.key := lt_of_le_of_lt (h ▸ le_later_left) hbc
      rw [h, later, later, if_pos hbc, if_pos hac]
  case neg =>
    have hc : c.key ≤ (a.later b).key := (not_lt.mp hbc).trans le_later_right
    rw [later_of_le hc, later_of_le (not_lt.mp hbc)]

-- The latest of a run of stamps is one of them, and the first one stands where it is not beaten.
theorem foldl_later_mem : l.foldl later a ∈ a :: l := by
  induction l generalizing a
  case nil => exact .head _
  case cons b l hi =>
    rw [List.foldl_cons]
    cases List.mem_cons.mp (hi (a := a.later b))
    case inr h => exact .tail _ (.tail _ h)
    case inl h =>
      rw [h]
      cases later_eq_or (a := a) (b := b)
      case inl h => exact h.symm ▸ .head _
      case inr h => exact h.symm ▸ .tail _ (.head _)

theorem le_foldl_later (h : s ∈ a :: l) : s.key ≤ (l.foldl later a).key := by
  induction l generalizing a s
  case nil => exact (List.mem_singleton.mp h) ▸ le_rfl
  case cons b l hi =>
    have hl : (a.later b).key ≤ (l.foldl later (a.later b)).key := hi (.head _)
    cases h
    case head => exact le_later_left.trans hl
    case tail h =>
      cases h
      case head   => exact le_later_right.trans hl
      case tail h => exact hi (.tail _ h)

def times (l : List (Stamp τ ι)) : Set τ :=
  {t | ∃ s ∈ l, s.time = some t}

theorem time_foldl_later {t : τ} :
    (l.foldl later a).time = some t ↔ IsGreatest (times (a :: l)) t := by
  constructor
  case mp =>
    intro ht
    refine ⟨⟨_, foldl_later_mem, ht⟩, fun u ⟨s, hs, hu⟩ => ?_⟩
    have hle := le_foldl_later hs
    rw [key, key, hu, ht] at hle
    exact WithBot.coe_le_coe.mp hle
  case mpr =>
    intro ⟨⟨s, hs, ht⟩, hub⟩
    have hle := le_foldl_later hs
    rw [key, key, ht] at hle
    have ⟨u, hu, htu⟩ := WithBot.coe_le_iff.mp hle
    have hut : u ≤ t := hub ⟨_, foldl_later_mem, hu⟩
    exact hu.trans <| congrArg some <| le_antisymm hut htu

theorem time_foldl_later_eq_none : (l.foldl later a).time = none ↔ times (a :: l) = ∅ := by
  constructor
  case mp =>
    intro hn
    refine Set.eq_empty_of_forall_notMem fun t ⟨s, hs, ht⟩ => ?_
    have hle := le_foldl_later hs
    rw [key, key, ht, hn] at hle
    exact WithBot.not_coe_le_bot t hle
  case mpr =>
    intro he
    cases ht : (l.foldl later a).time
    case none   => rfl
    case some t => exact absurd ⟨_, foldl_later_mem, ht⟩ <| Set.eq_empty_iff_forall_notMem.mp he t

theorem foldl_later_of_le (h : ∀ s ∈ l, s.key ≤ a.key) : l.foldl later a = a := by
  induction l
  case nil => rfl
  case cons b l hi =>
    have ⟨hb, hl⟩ := List.forall_mem_cons.mp h
    rw [List.foldl_cons, later_of_le hb, hi hl]

instance : Std.Associative (later (τ := τ) (ι := ι)) :=
  ⟨fun _ _ _ => later_assoc⟩

-- The stamps of a part of the run may be taken together first.
theorem later_foldl (h : s.time = none) : a.later (l.foldl later s) = l.foldl later a := by
  have hs : a.later s = a := later_of_le <| by rw [key, h]; exact bot_le
  calc a.later (l.foldl later s)
    _ = l.foldl later (a.later s) := List.foldl_assoc.symm
    _ = l.foldl later a           := by rw [hs]

theorem foldl_later_eq_or :
    l.foldl later a = a ∨ ∃ s ∈ l, a.key < s.key ∧ l.foldl later a = s := by
  by_cases h : ∀ s ∈ l, s.key ≤ a.key
  case pos => exact .inl <| foldl_later_of_le h
  case neg =>
    have ⟨s, hs, hlt⟩ : ∃ s ∈ l, a.key < s.key := by push Not at h; exact h
    have hlt : a.key < (l.foldl later a).key := hlt.trans_le <| le_foldl_later (.tail _ hs)
    cases List.mem_cons.mp (foldl_later_mem (a := a) (l := l))
    case inl he => exact .inl he
    case inr hm => exact .inr ⟨_, hm, hlt, rfl⟩

theorem foldl_later_perm (h : l.Perm l') : (l.foldl later a).key = (l'.foldl later a).key := by
  have hle {l l' : List (Stamp τ ι)} (h : l.Perm l') :
      (l.foldl later a).key ≤ (l'.foldl later a).key :=
    le_foldl_later <| (h.cons a).mem_iff.mp foldl_later_mem
  exact le_antisymm (hle h) (hle h.symm)

end Stamp
