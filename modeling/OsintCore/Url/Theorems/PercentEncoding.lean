import OsintCore.Objects.Theorems.Utf8
import OsintCore.Url.Pieces

namespace PercentEncoding

open Text (encode byteLen)

section Bytes

variable {c h l : Char} {t p q : List Char} {path : String}

theorem toDigit16_lt {d : Nat} (hd : toDigit16 c = some d) : c.toNat < 128 ∧ d < 16 := by
  simp only [toDigit16] at hd
  split_ifs at hd
  all_goals
    simp only [Option.some.injEq] at hd
    omega

theorem toDigit16_not_ascii (hc : 128 ≤ c.toNat) : toDigit16 c = none := by
  cases hd : toDigit16 c
  case none   => rfl
  case some d => exact absurd (toDigit16_lt hd).left (Nat.not_lt.mpr hc)

theorem toDigit16_percent : toDigit16 '%' = none := by
  decide

theorem digitAt_encode : digitAt (encode (c :: t)) 0 = toDigit16 c := by
  unfold digitAt
  by_cases hc : c.toNat < 128
  case pos =>
    have hb : c.toNat < 256 := by omega
    simp [Text.encode_ascii hc, Nat.mod_eq_of_lt hb]
  case neg =>
    have ⟨b, hb, hle⟩ := Text.encode_not_ascii (l := t) (Nat.not_lt.mp hc)
    have hn : (Char.ofNat b.toNat).toNat = b.toNat := by
      simp [Char.toNat_ofNat, Nat.isValidChar, b.toNat_lt.trans (by decide : 2 ^ 8 < 0xd800)]
    rw [Option.mem_def.mp hb, toDigit16_not_ascii (Nat.not_lt.mp hc)]
    exact toDigit16_not_ascii <| by rwa [hn]

theorem digitAt_encode_succ {i : Nat} (hc : c.toNat < 128) :
    digitAt (encode (c :: t)) (i + 1) = digitAt (encode t) i := by
  simp [digitAt, Text.encode_ascii hc]

theorem percentAt_encode : (encode (c :: t))[0]? = some 37 ↔ c = '%' := by
  by_cases hc : c.toNat < 128
  case pos =>
    have hb : c.toNat < 256 := by omega
    have hp : (37 : UInt8).toNat = '%'.toNat := rfl
    rw [Text.encode_ascii hc, List.getElem?_cons_zero, Option.some.injEq, ← UInt8.toNat_inj,
      UInt8.toNat_ofNat_of_lt' hb, hp, Char.toNat_inj]
  case neg =>
    have ⟨b, hb, hle⟩ := Text.encode_not_ascii (l := t) (Nat.not_lt.mp hc)
    rw [Option.mem_def.mp hb]
    constructor
    case mp =>
      intro he
      rw [Option.some.inj he] at hle
      exact absurd hle (by decide)
    case mpr =>
      intro he
      exact absurd (he ▸ hc) (by decide)

theorem isSome_toDigit16_ascii {i : Nat} (hc : (toDigit16 c).isSome) :
    digitAt (encode (c :: t)) (i + 1) = digitAt (encode t) i :=
  have ⟨_, hd⟩ := Option.isSome_iff_exists.mp hc
  digitAt_encode_succ (toDigit16_lt hd).left

theorem escapeAt_cons_of_ne (hc : c ≠ '%') : escapeAt (encode (c :: t)) 0 = none :=
  if_neg <| mt percentAt_encode.mp hc

theorem escapeAt_percent : escapeAt (encode ('%' :: t)) 0 = do
    let hi ← digitAt (encode t) 0
    let lo ← digitAt (encode t) 1
    return hi * 16 + lo := by
  unfold escapeAt
  rw [if_pos (percentAt_encode.mpr rfl), digitAt_encode_succ (by decide),
    digitAt_encode_succ (by decide)]

theorem escapeAt_short (h : t.length < 2) : escapeAt (encode (c :: t)) 0 = none := by
  by_cases hc : c = '%'
  case neg => exact escapeAt_cons_of_ne hc
  case pos =>
    rw [hc, escapeAt_percent]
    cases t
    case nil => rfl
    case cons d t =>
      have ht : t = [] := List.length_eq_zero_iff.mp <| Nat.lt_one_iff.mp <| Nat.lt_of_succ_lt_succ h
      subst ht
      rw [digitAt_encode]
      cases hd : toDigit16 d
      case none   => rfl
      case some v => rw [isSome_toDigit16_ascii (hd ▸ rfl)]; rfl

theorem escapeAt_cons : escapeAt (encode (c :: h :: l :: t)) 0 =
    if IsEscape c h l then valueOf h l else none := by
  by_cases hc : c = '%'
  case neg => rw [escapeAt_cons_of_ne hc, if_neg fun he => hc he.left]
  case pos =>
    have hv : escapeAt (encode (c :: h :: l :: t)) 0 = valueOf h l := by
      rw [hc, escapeAt_percent, digitAt_encode, valueOf]
      cases hd : toDigit16 h
      case none   => rfl
      case some v => rw [isSome_toDigit16_ascii (hd ▸ rfl), digitAt_encode]
    rw [hv]
    split_ifs with he
    case pos => rfl
    case neg => exact Option.not_isSome_iff_eq_none.mp fun hs => he ⟨hc, hs⟩

end Bytes

section Pieces

variable {c h l : Char} {t : List Char}

-- No escape begins with the character.
def Plain (c : Char) (t : List Char) : Prop :=
  ∀ h l t', t = h :: l :: t' → ¬IsEscape c h l

@[simp]
theorem pieces_nil : pieces [] = [] :=
  rfl

theorem pieces_escape (h' : (valueOf h l).isSome) :
    pieces ('%' :: h :: l :: t) = .escape h l :: pieces t :=
  if_pos ⟨rfl, h'⟩

theorem pieces_plain (hp : Plain c t) : pieces (c :: t) = .plain c :: pieces t := by
  rcases t with _ | ⟨h, _ | ⟨l, t⟩⟩
  case nil       => rfl
  case cons.nil  => rfl
  case cons.cons => exact if_neg <| hp h l t rfl

-- The cases of `pieces`.
@[elab_as_elim]
theorem pieces_induction {motive : List Char → Prop} (nil : motive [])
    (escape : ∀ h l t, (valueOf h l).isSome → motive t → motive ('%' :: h :: l :: t))
    (plain : ∀ c t, Plain c t → motive t → motive (c :: t)) (t : List Char) : motive t := by
  induction t using pieces.induct
  case case1 c h l t he hi => exact he.left ▸ escape h l t he.right hi
  case case2 c h l t he hi =>
    refine plain c _ (fun h' l' t' ht => ?_) hi
    simp only [List.cons.injEq] at ht
    rwa [← ht.left, ← ht.right.left]
  case case3 c t hn hi => exact plain c t (fun h l t' ht => (hn h l t' ht).elim) hi
  case case4 => exact nil

end Pieces

section Loop

variable {c h l : Char} {t p q out : List Char} {path : String}

theorem escapeAt_eq (hp : path.toList = p ++ q) :
    escapeAt (Text.asBytes path) (byteLen p) = escapeAt (encode q) 0 := by
  have hi (i : Nat) : (Text.asBytes path)[byteLen p + i]? = (encode q)[i]? := by
    rw [Text.asBytes, hp, Text.getElem?_encode]
  simp only [escapeAt, digitAt, hi, Nat.zero_add]
  rw [← hi 0, Nat.add_zero]

theorem escapeAt_plain (hp : Plain c t) : escapeAt (encode (c :: t)) 0 = none := by
  rcases t with _ | ⟨h, _ | ⟨l, t⟩⟩
  case nil       => exact escapeAt_short <| by simp
  case cons.nil  => exact escapeAt_short <| by simp
  case cons.cons => rw [escapeAt_cons, if_neg (hp h l t rfl)]

theorem length_asBytes (hp : path.toList = p ++ q) :
    (Text.asBytes path).length = byteLen p + byteLen q := by
  simp [Text.asBytes, hp]

-- One round of the loop, at an escape and at another character.

theorem normalizeFrom_escape {v : Nat} (hp : path.toList = p ++ '%' :: h :: l :: t)
    (hv : valueOf h l = some v) : normalizeFrom path (byteLen p) out =
      normalizeFrom path (byteLen (p ++ ['%', h, l])) (out ++ normalEscape v) := by
  have ⟨a, ha, hb⟩ := Option.bind_eq_some_iff.mp hv
  have ⟨b, hb, _⟩ := Option.bind_eq_some_iff.mp hb
  have hsize {c : Char} {d : Nat} (hd : toDigit16 c = some d) : c.utf8Size = 1 :=
    Char.utf8Size_eq_one_iff.mpr <| UInt32.le_iff_toNat_le.mpr <|
      Nat.le_of_lt_succ (toDigit16_lt hd).left
  have hl : byteLen (p ++ ['%', h, l]) = byteLen p + 3 := by
    simp [hsize ha, hsize hb, show Char.utf8Size '%' = 1 from rfl]
  have he : escapeAt (Text.asBytes path) (byteLen p) = some v := by
    rw [escapeAt_eq hp, escapeAt_cons, if_pos ⟨rfl, hv ▸ rfl⟩, hv]
  rw [normalizeFrom, if_pos (by simp [length_asBytes hp, hsize ha]), he, hl]

theorem normalizeFrom_plain (hp : path.toList = p ++ c :: t) (hc : Plain c t) :
    normalizeFrom path (byteLen p) out =
      normalizeFrom path (byteLen (p ++ [c])) (out ++ [c]) := by
  have hs := c.utf8Size_pos
  rw [normalizeFrom, if_pos (by simp [length_asBytes hp, hs]), escapeAt_eq hp, escapeAt_plain hc]
  simp [Text.sliceFrom_eq hp, bind, Except.bind]

theorem normalizeFrom_eq (hp : path.toList = p ++ q) :
    normalizeFrom path (byteLen p) out = .ok (out ++ normalize q) := by
  induction q using pieces_induction generalizing p out
  case nil =>
    rw [normalizeFrom, if_neg (by simp [length_asBytes hp])]
    simp [normalize, pure, Except.pure]
  case escape h l t hs hi =>
    have ⟨v, hv⟩ := Option.isSome_iff_exists.mp hs
    rw [normalizeFrom_escape hp hv, hi (by simpa using hp)]
    simp [normalize, pieces_escape hs, Piece.normal, hv]
  case plain c t hc hi =>
    rw [normalizeFrom_plain hp hc, hi (by simpa using hp)]
    simp [normalize, pieces_plain hc, Piece.normal]

-- No slice of the loop cuts a character.
theorem normalizePercentEncoding_eq (path : String) :
    normalizePercentEncoding path = .ok (.ofList (normalize path.toList)) := by
  have h : normalizeFrom path (byteLen []) [] = .ok ([] ++ normalize path.toList) :=
    normalizeFrom_eq rfl
  rw [Text.byteLen_nil] at h
  simp [normalizePercentEncoding, h]

end Loop

end PercentEncoding
