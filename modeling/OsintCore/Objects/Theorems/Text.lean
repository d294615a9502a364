import OsintCore.Objects.Text

namespace Text

variable {s : String} {c : Char}

section Lists

variable {α : Type} {P : α → Prop} {l : List α}

theorem forall_head? : (∀ a ∈ l.head?, P a) ↔ ∀ h : 0 < l.length, P (l.get ⟨0, h⟩) := by
  cases l <;> simp

theorem forall_getLast? : (∀ a ∈ l.getLast?, P a) ↔ ∀ h : l ≠ [], P (l.getLast h) := by
  by_cases h : l = []
  case pos => simp [h]
  case neg => simp [List.getLast?_eq_some_getLast h, h]

end Lists

theorem toList_trim :
    (trim s).toList = (s.toList.dropWhile isWhitespace).rdropWhile isWhitespace := by
  rw [trim, String.toList_ofList, List.rdropWhile]

theorem toList_trimEndMatches :
    (trimEndMatches c s).toList = s.toList.rdropWhile fun a => decide (a = c) := by
  rw [trimEndMatches, String.toList_ofList, List.rdropWhile]

theorem trim_sublist : (trim s).toList.Sublist s.toList := by
  rw [toList_trim]
  exact (List.rdropWhile_prefix _ _).sublist.trans (List.dropWhile_suffix isWhitespace).sublist

theorem trimEndMatches_sublist : (trimEndMatches c s).toList.Sublist s.toList := by
  rw [toList_trimEndMatches]
  exact (List.rdropWhile_prefix _ _).sublist

theorem trim_eq_self : trim s = s ↔
    (∀ a ∈ s.toList.head?, ¬isWhitespace a) ∧ ∀ a ∈ s.toList.getLast?, ¬isWhitespace a := by
  rw [forall_head?, forall_getLast?, ← String.toList_inj, toList_trim]
  constructor
  case mp =>
    intro h
    have hl := (List.dropWhile_suffix isWhitespace (l := s.toList)).sublist
    have hs := (List.rdropWhile_prefix isWhitespace (s.toList.dropWhile isWhitespace)).sublist
    rw [h] at hs
    have hd := hl.eq_of_length_le hs.length_le
    rw [hd] at h
    exact ⟨List.dropWhile_eq_self_iff.mp hd, List.rdropWhile_eq_self_iff.mp h⟩
  case mpr =>
    intro h
    rw [List.dropWhile_eq_self_iff.mpr h.left, List.rdropWhile_eq_self_iff.mpr h.right]

theorem trimEndMatches_eq_self : trimEndMatches c s = s ↔ ∀ a ∈ s.toList.getLast?, a ≠ c := by
  rw [forall_getLast?, ← String.toList_inj, toList_trimEndMatches, List.rdropWhile_eq_self_iff]
  simp only [decide_eq_true_eq]

theorem toLower_eq_self {c : Char} : c.toLower = c ↔ ¬c.isUpper := by
  unfold Char.toLower Char.isUpper
  split_ifs with h
  case pos =>
    have hc : c.val ≠ c.val + ('a'.val - 'A'.val) := by simp
    simp only [Char.ext_iff, h, and_self, decide_true, not_true_eq_false, iff_false]
    exact hc.symm
  case neg => simpa using h

theorem isUpper_iff : c.isUpper ↔ 65 ≤ c.toNat ∧ c.toNat ≤ 90 := by
  simp [Char.isUpper, UInt32.le_iff_toNat_le, ← Char.toNat_val]

-- A character stays what it is or becomes a small letter.
theorem toLower_cases : ¬c.isUpper ∧ c.toLower = c ∨ 97 ≤ c.toLower.toNat ∧ c.toLower.toNat ≤ 122 := by
  by_cases h : c.isUpper
  case neg => exact .inl ⟨h, toLower_eq_self.mpr h⟩
  case pos =>
    have hc := isUpper_iff.mp h
    have h' := h
    simp only [Char.isUpper, decide_eq_true_eq] at h'
    have hn : c.toLower.toNat = c.toNat + 32 := by
      rw [Char.toLower, dif_pos h']
      have hs : ('a'.val - 'A'.val).toNat = 32 := by decide
      simp only [← Char.toNat_val] at hc ⊢
      rw [UInt32.toNat_add, hs, Nat.mod_eq_of_lt]
      omega
    exact .inr ⟨by omega, by omega⟩

theorem not_isUpper_toLower : ¬c.toLower.isUpper := by
  rw [isUpper_iff]
  obtain ⟨h, he⟩ | h := toLower_cases (c := c)
  · rwa [he, ← isUpper_iff]
  · omega

theorem isWhitespace_toLower (h : ¬isWhitespace c) : ¬isWhitespace c.toLower := by
  obtain ⟨_, he⟩ | hl := toLower_cases (c := c)
  · rwa [he]
  · simp only [isWhitespace, decide_eq_true_eq]
    omega

theorem toLower_ne_dot (h : c ≠ '.') : c.toLower ≠ '.' := by
  obtain ⟨_, he⟩ | hl := toLower_cases (c := c)
  · rwa [he]
  · intro he
    simp [he] at hl

theorem getLast?_trimEndMatches : ∀ a ∈ (trimEndMatches c s).toList.getLast?, a ≠ c := by
  rw [toList_trimEndMatches, forall_getLast?]
  intro h
  simpa using List.rdropWhile_last_not _ _ h

theorem toAsciiLowercase_eq_self : toAsciiLowercase s = s ↔ ∀ c ∈ s.toList, ¬c.isUpper := by
  rw [← String.toList_inj]
  simp only [toAsciiLowercase, String.toList_ofList, ← toLower_eq_self]
  induction s.toList
  case nil => simp
  case cons c l hi => simp [hi]

end Text
