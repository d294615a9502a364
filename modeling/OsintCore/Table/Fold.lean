import OsintCore.Control.Fold
import OsintCore.Table.Basic

open Keyed (key)

namespace Table

variable {α ι : Type} [LinearOrder ι] [Keyed α ι] {t : Table α} {f : α → α} {p : α → Prop}

-- A loop which rewrites, in place, each of the rows that meet a condition.
theorem get?_foldl_put [DecidablePred p] {l : List α} (hf : ∀ a, key (f a) = key a)
    (hl : ∀ a, a ∈ l ↔ a ∈ t ∧ p a) (i : ι) :
    (l.foldl (fun t a => t.put (f a)) t).get? i = (t.get? i).map fun a => if p a then f a else a := by
  have hv : (l.foldl (fun t a => t.put (f a)) t).get? i =
      l.foldl (fun v a => if key a = i then some (f a) else v) (t.get? i) :=
    List.foldl_view (v := fun t => get? t i) fun t a _ => by simp [hf]
  rw [hv]
  have hi : ∀ b ∈ l, key b = i → t.get? i = some b := fun b hb hk =>
    get?_eq_some.mpr ⟨hl b |>.mp hb |>.left, hk⟩
  cases ha : t.get? i
  case none =>
    apply List.foldl_skip
    intro b hb
    have := hi b hb
    simp_all
  case some a =>
    by_cases hp : p a
    case pos =>
      have hm : a ∈ l := hl a |>.mpr ⟨get?_mem ha, hp⟩
      have hfa : ∀ b ∈ l, key b = i → some (f b) = some (f a) := by
        intro b hb hk
        have := hi b hb hk
        simp_all
      simp only [Option.map_some, hp, if_true]
      refine List.foldl_hit hm (by simp [get?_key ha]) (fun b hb => ?_) (fun b hb => ?_)
      all_goals
        have := hfa b hb
        split_ifs <;> simp_all
    case neg =>
      simp only [Option.map_some, hp, if_false]
      apply List.foldl_skip
      intro b hb
      have := hi b hb
      have := hl b |>.mp hb |>.right
      split_ifs <;> simp_all

-- A loop which writes rows of which no two have the same key, unless they are equal.
theorem mem_foldl_put {l : List α} (hl : ∀ a ∈ l, ∀ b ∈ l, key a = key b → a = b) (t : Table α)
    {b : α} : b ∈ l.foldl put t ↔ b ∈ l ∨ b ∈ t ∧ ∀ a ∈ l, key a ≠ key b := by
  induction l generalizing t
  case nil => simp
  case cons a l hi =>
    have hl' : ∀ c ∈ l, key a = key c → a = c := fun c hc => hl a (by simp) c (by simp [hc])
    rw [List.foldl_cons, hi fun c hc d hd => hl c (by simp [hc]) d (by simp [hd]), mem_put]
    simp only [List.mem_cons, forall_eq_or_imp]
    grind

theorem isSome_get?_foldl_put {l : List α} {i : ι} :
    ((l.foldl put t).get? i).isSome ↔ (∃ a ∈ l, key a = i) ∨ (t.get? i).isSome := by
  induction l generalizing t
  case nil => simp
  case cons a l hi =>
    rw [List.foldl_cons, hi, get?_put]
    by_cases h : key a = i
    case pos => simp [h]
    case neg => simp [h]

end Table
