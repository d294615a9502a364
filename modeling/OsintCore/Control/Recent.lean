import Mathlib

-- The last elements of a list which grows at its end.
namespace List

variable {α : Type} {p q : α → Bool} {l m : List α} {n : Nat}

theorem length_rtake_le : (l.rtake n).length ≤ n := by
  simp only [rtake, length_drop]
  omega

theorem rtake_sublist : (l.rtake n).Sublist l :=
  drop_sublist _ _

-- Of what is appended to, no more than the last elements matter.
theorem rtake_rtake_append : (l.rtake n ++ m).rtake n = (l ++ m).rtake n := by
  simp only [rtake_eq_reverse_take_reverse, reverse_append, reverse_reverse, take_append, take_take]
  congr 3
  omega

theorem rtake_cons_of_le {a : α} (h : n ≤ l.length) : (a :: l).rtake n = l.rtake n := by
  rw [rtake, length_cons, Nat.succ_sub h, drop_succ_cons, rtake]

theorem rtake_of_length_le (h : l.length ≤ n) : l.rtake n = l := by
  rw [rtake, Nat.sub_eq_zero_of_le h, drop_zero]

theorem dropWhile_eq_filter (h : l.Pairwise fun a b => p b → p a) :
    l.dropWhile p = l.filter (!p ·) := by
  induction l
  case nil => rfl
  case cons a l hi =>
    have ⟨ha, hl⟩ := pairwise_cons.mp h
    cases hp : p a
    case true => simpa [hp] using hi hl
    case false =>
      have hf : l.filter (!p ·) = l := by
        apply filter_eq_self.mpr
        intro b hb
        simpa [hp] using mt (ha b hb)
      simp [hp, hf]

-- The elements with the property are the last ones.
theorem filter_rtake (h : l.Pairwise fun a b => p a → p b) :
    (l.rtake n).filter p = (l.filter p).rtake n := by
  induction l
  case nil => simp
  case cons a l hi =>
    have ⟨ha, hl⟩ := pairwise_cons.mp h
    by_cases hn : (a :: l).length ≤ n
    case pos =>
      have hf := (length_filter_le p (a :: l)).trans hn
      rw [rtake_of_length_le hn, rtake_of_length_le hf]
    case neg =>
      have hn : n ≤ l.length := Nat.le_of_lt_succ (not_le.mp hn)
      rw [rtake_cons_of_le hn, hi hl]
      cases hp : p a
      case false => simp [hp]
      case true =>
        have hf : l.filter p = l := filter_eq_self.mpr fun b hb => ha b hb hp
        rw [filter_cons_of_pos hp, hf, rtake_cons_of_le hn]

end List
