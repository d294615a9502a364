import OsintCore.Objects.Unicode

namespace Unicode

variable {u : Unicode} {before l : List Char} {c : Char}

-- A property of characters which has one value for all ASCII letters does not see their case.
theorem eq_toLower {α : Type} {f : Char → α} {a : α} (h : ∀ c, c.isAlpha → f c = a) :
    f c.toLower = f c := by
  by_cases hc : c.isUpper
  case pos =>
    have ha : c.isAlpha := by simp [Char.isAlpha, hc]
    rw [h c ha, h _ (by rw [Char.isAlpha_toLower_eq_isAlpha, ha])]
  case neg => rw [Char.toLower_eq_of_not_isUpper hc]

theorem toLower_eq_sigma : c.toLower = 'Σ' ↔ c = 'Σ' := by
  by_cases hc : c.isUpper
  case pos =>
    have ha : c.toLower.isAlpha := by simp [Char.isAlpha, hc]
    refine iff_of_false (fun h => ?_) (fun h => ?_)
    case refine_1 => exact absurd (h ▸ ha) (by decide)
    case refine_2 => exact absurd (h ▸ hc) (by decide)
  case neg => rw [Char.toLower_eq_of_not_isUpper hc]

section

variable (h : u.Lawful)
include h

theorem Lawful.lower_toLower : u.lower c.toLower = u.lower c := by
  by_cases hc : c.isUpper
  case pos =>
    have ha : c.isAlpha := by simp [Char.isAlpha, hc]
    have ha' : c.toLower.isAlpha := by rw [Char.isAlpha_toLower_eq_isAlpha, ha]
    rw [h.lower c ha, h.lower _ ha', Char.toLower_toLower_eq_toLower]
  case neg => rw [Char.toLower_eq_of_not_isUpper hc]

theorem Lawful.caseIgnorableThenCased_toLower :
    u.caseIgnorableThenCased (l.map Char.toLower) = u.caseIgnorableThenCased l := by
  have hi (c : Char) : u.isCaseIgnorable c.toLower = u.isCaseIgnorable c :=
    eq_toLower fun c hc => Bool.eq_false_iff.mpr (h.isCaseIgnorable c hc)
  have hc (c : Char) : u.isCased c.toLower = u.isCased c := eq_toLower h.isCased
  have hd : u.isCaseIgnorable ∘ Char.toLower = u.isCaseIgnorable := funext hi
  rw [caseIgnorableThenCased, caseIgnorableThenCased, List.dropWhile_map, hd]
  cases l.dropWhile u.isCaseIgnorable
  case nil      => rfl
  case cons c l => exact hc c

theorem Lawful.lowercaseFrom_toLower (before l : List Char) :
    u.lowercaseFrom (before.map Char.toLower) (l.map Char.toLower) = u.lowercaseFrom before l := by
  induction l generalizing before
  case nil => rfl
  case cons c l hi =>
    have hi := hi (c :: before)
    rw [List.map_cons] at hi
    rw [List.map_cons, lowercaseFrom, lowercaseFrom, hi, h.lower_toLower, mapUppercaseSigma,
      mapUppercaseSigma, h.caseIgnorableThenCased_toLower, h.caseIgnorableThenCased_toLower]
    simp only [toLower_eq_sigma]

theorem Lawful.toLowercase_toAsciiLowercase {s : String} :
    u.toLowercase (Text.toAsciiLowercase s) = u.toLowercase s := by
  have hl := h.lowercaseFrom_toLower [] s.toList
  rw [toLowercase, Text.toAsciiLowercase, String.toList_ofList, toLowercase]
  exact congrArg String.ofList hl

end

-- The words which a text has, whatever stands between them and around them.
inductive Spells (u : Unicode) : List Char → List (List Char) → Prop
  | nil : Spells u [] []
  | separator {c l words} (separates : ¬u.isAlphanumeric c) (rest : Spells u l words) :
    Spells u (c :: l) words
  | word {t l words} (alphanumeric : ∀ c ∈ t, u.isAlphanumeric c)
    (ends : ∀ c ∈ l.head?, ¬u.isAlphanumeric c) (rest : Spells u l words) :
    Spells u (t ++ l) (t :: words)

-- Each text has words: the characters up to the next separator are put aside as one of them.
theorem exists_spells (l : List Char) : ∃ words, Spells u l words := by
  have hw : ∃ t l' words, l = t ++ l' ∧ (∀ c ∈ t, u.isAlphanumeric c) ∧
      (∀ c ∈ l'.head?, ¬u.isAlphanumeric c) ∧ Spells u l' words := by
    induction l
    case nil => exact ⟨[], [], [], rfl, by simp, by simp, .nil⟩
    case cons c l hi =>
      have ⟨t, l', words, he, ht, hl', hw⟩ := hi
      by_cases hc : u.isAlphanumeric c
      case pos =>
        exact ⟨c :: t, l', words, by rw [he, List.cons_append], by simpa [hc] using ht, hl', hw⟩
      case neg =>
        refine ⟨[], c :: l, t :: words, rfl, by simp, by simpa using hc, ?_⟩
        rw [he]
        exact .separator hc (.word ht hl' hw)
  have ⟨t, l', words, he, ht, hl', hw⟩ := hw
  exact ⟨t :: words, he ▸ .word ht hl' hw⟩

end Unicode
