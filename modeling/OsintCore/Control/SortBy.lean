import Mathlib

namespace List

variable {α κ : Type}

-- `slice::sort_by`
def sortBy (cmp : α → α → Ordering) (l : List α) : List α :=
  l.insertionSort fun a b => cmp a b ≠ .gt

theorem sortBy_perm {cmp : α → α → Ordering} {l : List α} : (l.sortBy cmp).Perm l :=
  perm_insertionSort _ l

-- The elements are compared by keys.
variable [LinearOrder κ] {cmp : α → α → Ordering} {key : α → κ} {l l' : List α}
variable (h : ∀ a b, cmp a b = compare (key a) (key b))
include h

theorem sortBy_sorted : (l.sortBy cmp).Pairwise fun a b => key a ≤ key b := by
  have hle (a b : α) : cmp a b ≠ .gt ↔ key a ≤ key b := by rw [h, compare_le_iff_le]
  have : Std.Total fun a b => cmp a b ≠ .gt := ⟨fun a b => by simp only [hle]; exact le_total _ _⟩
  have : IsTrans α fun a b => cmp a b ≠ .gt :=
    ⟨fun a b c hab hbc => (hle a c).mpr <| ((hle a b).mp hab).trans ((hle b c).mp hbc)⟩
  exact (pairwise_insertionSort (fun a b => cmp a b ≠ .gt) l).imp fun hab => (hle _ _).mp hab

theorem sortBy_strict (hn : (l.map key).Nodup) :
    (l.sortBy cmp).Pairwise fun a b => key a < key b := by
  have hn : (l.sortBy cmp).Pairwise fun a b => key a ≠ key b :=
    List.pairwise_map.mp <| (sortBy_perm.map key).nodup_iff.mpr hn
  exact (sortBy_sorted h).imp₂ (fun _ _ hle hne => lt_of_le_of_ne hle hne) hn

-- The order in which the elements come in makes no difference.
theorem sortBy_congr (hn : (l.map key).Nodup) (hp : l'.Perm l) : l'.sortBy cmp = l.sortBy cmp := by
  have hn' : (l'.map key).Nodup := (hp.map key).nodup_iff.mpr hn
  have hs : (l'.sortBy cmp).Perm (l.sortBy cmp) := sortBy_perm.trans <| hp.trans sortBy_perm.symm
  apply hs.eq_of_pairwise _ (sortBy_strict h hn') (sortBy_strict h hn)
  exact fun _ _ _ _ hab hba => absurd (hab.trans hba) (lt_irrefl _)

end List
