import OsintCore.Url.Theorems.PercentEncoding

namespace PercentEncoding

variable {c h l : Char} {t : List Char} {v : Nat}

section Escapes

theorem valueOf_lt (hv : valueOf h l = some v) : v < 256 := by
  have ⟨a, ha, hb⟩ := Option.bind_eq_some_iff.mp hv
  have ⟨b, hb, he⟩ := Option.bind_eq_some_iff.mp hb
  have h₁ := (toDigit16_lt ha).right
  have h₂ := (toDigit16_lt hb).right
  have he : a * 16 + b = v := Option.some.inj he
  omega

theorem isSome_toDigit16 (hv : (valueOf h l).isSome) :
    (toDigit16 h).isSome ∧ (toDigit16 l).isSome := by
  have ⟨v, hv⟩ := Option.isSome_iff_exists.mp hv
  have ⟨a, ha, hb⟩ := Option.bind_eq_some_iff.mp hv
  have ⟨b, hb, _⟩ := Option.bind_eq_some_iff.mp hb
  exact ⟨ha ▸ rfl, hb ▸ rfl⟩

theorem ne_percent_of_digit (hc : (toDigit16 c).isSome) : c ≠ '%' := by
  intro he
  rw [he] at hc
  exact absurd hc (by decide)

theorem canonical_percent_left : Canonical '%' l := by
  simp [Canonical, valueOf, toDigit16_percent]

theorem canonical_percent_right : Canonical h '%' := by
  simp [Canonical, valueOf, toDigit16_percent]

theorem canonical_iff (hv : valueOf h l = some v) : Canonical h l ↔ normalEscape v = ['%', h, l] := by
  simp [Canonical, hv]

-- What an escape may be turned to.
theorem normalEscape_cases (hv : v < 256) :
    (∃ c, normalEscape v = [c] ∧ c ≠ '%' ∧ c ≠ '/') ∨
      ∃ h l, normalEscape v = ['%', h, l] ∧ valueOf h l = some v := by
  have hd : ∀ v < 256, if isUnreserved v then Char.ofNat v ≠ '%' ∧ Char.ofNat v ≠ '/' else
      valueOf (upperDigit (v / 16)) (upperDigit (v % 16)) = some v := by
    decide +kernel
  have hv := hd v hv
  unfold normalEscape
  split_ifs at hv ⊢
  case pos => exact .inl ⟨_, rfl, hv⟩
  case neg => exact .inr ⟨_, _, rfl, hv⟩

theorem canonical_normalEscape (hn : normalEscape v = ['%', h, l]) (hv : valueOf h l = some v) :
    Canonical h l :=
  (canonical_iff hv).mpr hn

end Escapes

section Settled

theorem settled_nil : Settled [] := by
  simp [Settled]

theorem settled_cons : Settled (c :: t) ↔
    (c = '%' → ∀ h ∈ t[0]?, ∀ l ∈ t[1]?, Canonical h l) ∧ Settled t := by
  simp only [Settled, List.infix_cons_iff, List.cons_prefix_cons, or_imp, forall_and]
  refine and_congr ?_ .rfl
  constructor
  case mp =>
    intro hd hc h hh l hl
    rcases t with _ | ⟨a, _ | ⟨b, t⟩⟩
    case nil       => exact absurd hh (by simp)
    case cons.nil  => exact absurd hl (by simp)
    case cons.cons =>
      have ha : a = h := Option.some.inj hh
      have hb : b = l := Option.some.inj hl
      exact hd h l ⟨hc.symm, ⟨t, by simp [ha, hb]⟩⟩
  case mpr =>
    intro hd h l ⟨hc, ⟨rest, ht⟩⟩
    subst ht
    exact hd hc.symm h rfl l rfl

theorem settled_cons_of_ne (hc : c ≠ '%') : Settled (c :: t) ↔ Settled t :=
  settled_cons.trans <| and_iff_right fun h => absurd h hc

theorem settled_escape (hv : (valueOf h l).isSome) :
    Settled ('%' :: h :: l :: t) ↔ Canonical h l ∧ Settled t := by
  have ⟨hh, hl⟩ := isSome_toDigit16 hv
  rw [settled_cons, settled_cons_of_ne (ne_percent_of_digit hh),
    settled_cons_of_ne (ne_percent_of_digit hl)]
  simp

theorem settled_plain (hp : Plain c t) : Settled (c :: t) ↔ Settled t := by
  refine settled_cons.trans <| and_iff_right fun hc h hh l hl v hv => ?_
  rcases t with _ | ⟨a, _ | ⟨b, t⟩⟩
  case nil       => exact absurd hh (by simp)
  case cons.nil  => exact absurd hl (by simp)
  case cons.cons =>
    simp only [List.getElem?_cons_zero, List.getElem?_cons_succ, Option.mem_def,
      Option.some.injEq] at hh hl
    subst hh hl
    exact absurd ⟨hc, Option.isSome_of_mem hv⟩ (hp a b t rfl)

theorem settled_normalEscape (hv : v < 256) : Settled (normalEscape v ++ t) ↔ Settled t := by
  rcases normalEscape_cases hv with ⟨c, hn, hc, _⟩ | ⟨h, l, hn, hs⟩
  case inl => rw [hn]; exact settled_cons_of_ne hc
  case inr =>
    rw [hn]
    exact (settled_escape (hs ▸ rfl)).trans <| and_iff_right <| canonical_normalEscape hn hs

end Settled

section Normalize

@[simp]
theorem normalize_nil : normalize [] = [] :=
  rfl

theorem normalize_escape (hv : valueOf h l = some v) :
    normalize ('%' :: h :: l :: t) = normalEscape v ++ normalize t := by
  have hs : (valueOf h l).isSome := by simp [hv]
  simp [normalize, pieces_escape hs, Piece.normal, hv]

theorem normalize_plain (hp : Plain c t) : normalize (c :: t) = c :: normalize t := by
  simp [normalize, pieces_plain hp, Piece.normal]

theorem length_normalEscape_le (hv : v < 256) : (normalEscape v).length ≤ 3 := by
  rcases normalEscape_cases hv with ⟨_, hn, _⟩ | ⟨_, _, hn, _⟩
  case inl => simp [hn]
  case inr => simp [hn]

theorem length_normalize_le : (normalize t).length ≤ t.length := by
  induction t using pieces_induction
  case nil => exact le_rfl
  case escape h l t hs hi =>
    have ⟨v, hv⟩ := Option.isSome_iff_exists.mp hs
    have hn := length_normalEscape_le (valueOf_lt hv)
    simp only [normalize_escape hv, List.length_append, List.length_cons]
    omega
  case plain c t hp hi => simpa [normalize_plain hp] using hi

theorem plain_of_ne (hc : c ≠ '%') : Plain c t :=
  fun _ _ _ _ he => hc he.left

theorem head_normalize (hc : c ≠ '%') (ht : t.head? = some c) : (normalize t).head? = some c := by
  cases t
  case nil => exact absurd ht nofun
  case cons a t =>
    have ha : a = c := Option.some.inj ht
    rw [ha, normalize_plain (plain_of_ne hc), List.head?_cons]

-- The characters which are written are those of the text and of escapes.
theorem mem_normalize (hc : c ∈ normalize t) : c ∈ t ∨ c = '%' ∨ isUnreserved c.toNat := by
  have hd : ∀ v < 256, (normalEscape v).all fun c => c = '%' || isUnreserved c.toNat := by
    decide +kernel
  induction t using pieces_induction
  case nil => exact absurd hc List.not_mem_nil
  case escape h l t hs hi =>
    have ⟨v, hv⟩ := Option.isSome_iff_exists.mp hs
    rw [normalize_escape hv] at hc
    rcases List.mem_append.mp hc with hc | hc
    case inl => exact .inr <| by simpa using List.all_eq_true.mp (hd v (valueOf_lt hv)) c hc
    case inr => exact (hi hc).imp_left fun hc => by simp [hc]
  case plain a t hp hi =>
    rw [normalize_plain hp] at hc
    rcases List.mem_cons.mp hc with hc | hc
    case inl => exact .inl <| hc ▸ List.mem_cons_self
    case inr => exact (hi hc).imp_left <| List.mem_cons_of_mem _

-- What is settled is left as it is.
theorem normalize_eq_self : normalize t = t ↔ Settled t := by
  induction t using pieces_induction
  case nil => simp [settled_nil]
  case plain c t hp hi => simp [normalize_plain hp, settled_plain hp, hi]
  case escape h l t hs hi =>
    have ⟨v, hv⟩ := Option.isSome_iff_exists.mp hs
    rw [normalize_escape hv, settled_escape hs, canonical_iff hv, ← hi]
    constructor
    case mpr => exact fun ⟨hn, ht⟩ => by rw [hn, ht]; rfl
    case mp =>
      intro he
      rcases normalEscape_cases (valueOf_lt hv) with ⟨c, hn, _⟩ | ⟨a, b, hn, _⟩
      case inl =>
        have hl := congrArg List.length he
        have hle := length_normalize_le (t := t)
        simp only [hn, List.length_append, List.length_cons, List.length_nil] at hl
        omega
      case inr =>
        have he : normalEscape v ++ normalize t = ['%', h, l] ++ t := he
        exact List.append_inj he <| by simp [hn]

end Normalize

section Clean

theorem clean_escape (hv : (valueOf h l).isSome) : Clean ('%' :: h :: l :: t) ↔ Clean t := by
  simp [Clean, pieces_escape hv, List.infix_cons_iff]

theorem clean_plain (hp : Plain c t) : Clean (c :: t) ↔
    (c = '%' → ∀ u v, [u, v] <+: pieces t → ∀ h l, u.normal = [h] → v.normal = [l] →
      Canonical h l) ∧ Clean t := by
  simp only [Clean, pieces_plain hp, List.infix_cons_iff, List.cons_prefix_cons, Piece.plain.injEq]
  constructor
  case mp =>
    exact fun hc => ⟨fun he u v hu => hc u v (.inl ⟨he.symm, hu⟩), fun u v hu => hc u v (.inr hu)⟩
  case mpr =>
    intro ⟨hd, ht⟩ u v hu
    exact hu.elim (fun ⟨he, hu⟩ => hd he.symm u v hu) (ht u v)

-- A piece writes one character, or an escape.
theorem Piece.normal_cases (u : Piece) :
    (∃ c, u.normal = [c]) ∨ ∃ h l, u.normal = ['%', h, l] := by
  cases u
  case plain c => exact .inl ⟨c, rfl⟩
  case escape h l =>
    cases hv : valueOf h l
    case none   => exact .inr ⟨h, l, by simp [Piece.normal, hv]⟩
    case some v =>
      simp only [Piece.normal, hv, Option.elim_some]
      exact (normalEscape_cases (valueOf_lt hv)).imp (.imp fun _ h => h.left)
        (.imp fun _ => .imp fun _ h => h.left)

-- Only two characters of their own can be the digits behind a percent sign.
theorem digits_iff {P : List Piece} :
    (∀ h ∈ (P.flatMap Piece.normal)[0]?, ∀ l ∈ (P.flatMap Piece.normal)[1]?, Canonical h l) ↔
      ∀ u v, [u, v] <+: P → ∀ h l, u.normal = [h] → v.normal = [l] → Canonical h l := by
  constructor
  case mp =>
    intro hd u v ⟨rest, hu⟩ h l hh hl
    subst hu
    exact hd h (by simp [hh]) l (by simp [hh, hl])
  case mpr =>
    intro hd h hh l hl
    rcases P with _ | ⟨u, P⟩
    case nil => exact absurd hh (by simp)
    case cons =>
      rcases u.normal_cases with ⟨c, hu⟩ | ⟨a, b, hu⟩
      case inr =>
        have hh : h = '%' := by simpa [hu, eq_comm] using hh
        exact hh ▸ canonical_percent_left
      case inl =>
        have hc : c = h := by simpa [hu] using hh
        rcases P with _ | ⟨v, P⟩
        case nil => exact absurd hl (by simp [hu])
        case cons =>
          rcases v.normal_cases with ⟨d, hv⟩ | ⟨a, b, hv⟩
          case inr =>
            have hl : l = '%' := by simpa [hu, hv, eq_comm] using hl
            exact hl ▸ canonical_percent_right
          case inl =>
            have he : d = l := by simpa [hu, hv] using hl
            exact hd u v ⟨P, rfl⟩ h l (hc ▸ hu) (he ▸ hv)

theorem settled_normalize : Settled (normalize t) ↔ Clean t := by
  induction t using pieces_induction
  case nil => simp [settled_nil, Clean]
  case escape h l t hs hi =>
    have ⟨v, hv⟩ := Option.isSome_iff_exists.mp hs
    rw [normalize_escape hv, settled_normalEscape (valueOf_lt hv), clean_escape hs, hi]
  case plain c t hp hi =>
    rw [normalize_plain hp, clean_plain hp, settled_cons, ← hi]
    exact and_congr (imp_congr_right fun _ => digits_iff) .rfl

theorem normalize_normalize : normalize (normalize t) = normalize t ↔ Clean t :=
  normalize_eq_self.trans settled_normalize

end Clean

section Append

variable {p q : List Char}

-- No escape reaches into the second text.
variable (hq : ∀ c ∈ q.head?, toDigit16 c = none)
include hq

theorem normalize_append : normalize (p ++ q) = normalize p ++ normalize q := by
  induction p using pieces_induction
  case nil => rfl
  case escape h l p hs hi =>
    have ⟨v, hv⟩ := Option.isSome_iff_exists.mp hs
    simp only [List.cons_append, normalize_escape hv, hi, List.append_assoc]
  case plain c p hp hi =>
    have hc : Plain c (p ++ q) := by
      intro h l t ht he
      have ⟨hh, hl⟩ := isSome_toDigit16 he.right
      rcases p with _ | ⟨a, _ | ⟨b, p⟩⟩
      case nil =>
        rw [hq h <| by simp [show q = h :: l :: t from ht]] at hh
        exact absurd hh (by simp)
      case cons.nil =>
        have ht : q = l :: t := (List.cons.inj ht).right
        rw [hq l <| by simp [ht]] at hl
        exact absurd hl (by simp)
      case cons.cons =>
        have ⟨ha, ht⟩ := List.cons.inj ht
        have ⟨hb, _⟩ := List.cons.inj ht
        exact hp a b p rfl (ha ▸ hb ▸ he)
    rw [List.cons_append, normalize_plain hc, normalize_plain hp, hi, List.cons_append]

theorem settled_append : Settled (p ++ q) ↔ Settled p ∧ Settled q := by
  rw [← normalize_eq_self, ← normalize_eq_self, ← normalize_eq_self, normalize_append hq]
  constructor
  case mpr => exact fun ⟨hp, hq⟩ => by rw [hp, hq]
  case mp =>
    intro he
    have hl := congrArg List.length he
    have h₁ := length_normalize_le (t := p)
    have h₂ := length_normalize_le (t := q)
    simp only [List.length_append] at hl
    exact List.append_inj he <| by omega

end Append

section Infix

variable {p : List Char}

theorem Settled.of_within (ht : Settled t) (hp : p <:+: t) : Settled p :=
  fun h l hi => ht h l (hi.trans hp)

theorem settled_of_not_mem (ht : '%' ∉ t) : Settled t :=
  fun _ _ hi => absurd (hi.subset List.mem_cons_self) ht

theorem settled_intercalate {ls : List (List Char)} :
    Settled (['/'].intercalate ls) ↔ ∀ s ∈ ls, Settled s := by
  induction ls
  case nil => simp [settled_nil]
  case cons s ls hi =>
    by_cases hn : ls = []
    case pos => simp [hn]
    case neg =>
      have hs : ∀ c ∈ ('/' :: ['/'].intercalate ls).head?, toDigit16 c = none := by simp; decide
      rw [List.intercalate_cons_of_ne_nil hn, List.append_assoc, List.singleton_append,
        settled_append hs, settled_cons_of_ne (by decide), hi, List.forall_mem_cons]

theorem settled_segments : Settled t ↔ ∀ s ∈ t.splitOn '/', Settled s := by
  rw [← settled_intercalate, List.intercalate_splitOn]

end Infix

end PercentEncoding
