import OsintCore.Objects.Utf8

namespace Text

variable {l p q : List Char} {c : Char} {n : Nat} {s : String}

@[simp]
theorem byteLen_nil : byteLen [] = 0 :=
  rfl

@[simp]
theorem byteLen_cons : byteLen (c :: l) = c.utf8Size + byteLen l :=
  rfl

@[simp]
theorem byteLen_append : byteLen (p ++ q) = byteLen p + byteLen q := by
  simp [byteLen]

@[simp]
theorem length_encode : (encode l).length = byteLen l := by
  simp [encode, byteLen, List.length_flatMap]

@[simp]
theorem encode_append : encode (p ++ q) = encode p ++ encode q :=
  List.flatMap_append

theorem encode_cons : encode (c :: l) = String.utf8EncodeChar c ++ encode l :=
  rfl

theorem splitAtByte_eq_some : splitAtByte n l = some (p, q) ↔ l = p ++ q ∧ byteLen p = n := by
  induction l generalizing n p
  case nil =>
    cases p
    case nil  => simp [splitAtByte, eq_comm, and_comm]
    case cons => simp [splitAtByte]
  case cons c l hi =>
    have hc := c.utf8Size_pos
    cases p
    case nil =>
      by_cases hn : n = 0
      case pos => simp [splitAtByte, hn]
      case neg =>
        simp only [splitAtByte, hn, if_false, byteLen_nil, Ne.symm hn, and_false, iff_false]
        split_ifs <;> simp
    case cons d p =>
      simp only [splitAtByte, byteLen_cons, List.cons_append, List.cons.injEq]
      split_ifs with hn hle
      case pos =>
        simp only [Option.some.injEq, Prod.mk.injEq, reduceCtorEq, false_and, false_iff, not_and]
        intro ⟨hcd, _⟩ hb
        subst hcd
        omega
      case pos =>
        simp only [Option.map_eq_some_iff, Prod.exists, Prod.mk.injEq, List.cons.injEq]
        constructor
        case mp =>
          intro ⟨p', q', h, ⟨hcd, hp⟩, hq⟩
          have ⟨hl, hb⟩ := hi.mp (hp ▸ hq ▸ h)
          exact ⟨⟨hcd, hl⟩, by subst hcd; omega⟩
        case mpr =>
          intro ⟨⟨hcd, hl⟩, hb⟩
          exact ⟨p, q, hi.mpr ⟨hl, by subst hcd; omega⟩, ⟨hcd, rfl⟩, rfl⟩
      case neg =>
        simp only [false_iff, not_and]
        intro ⟨hcd, _⟩ hb
        subst hcd
        omega

theorem isCharBoundary_iff :
    isCharBoundary s n ↔ ∃ p q, s.toList = p ++ q ∧ byteLen p = n := by
  simp [isCharBoundary, Option.isSome_iff_exists, splitAtByte_eq_some]

theorem isOk_sliceTo : (sliceTo s n).isOk = isCharBoundary s n := by
  unfold sliceTo isCharBoundary
  cases splitAtByte n s.toList <;> rfl

theorem sliceFrom_eq (h : s.toList = p ++ q) : sliceFrom s (byteLen p) = .ok (.ofList q) := by
  simp [sliceFrom, splitAtByte_eq_some.mpr ⟨h, rfl⟩]

theorem getElem?_encode (i : Nat) : (encode (p ++ q))[byteLen p + i]? = (encode q)[i]? := by
  rw [encode_append, List.getElem?_append_right (by simp), length_encode]
  simp

theorem encode_ascii (h : c.toNat < 128) : encode (c :: l) = UInt8.ofNat c.toNat :: encode l := by
  have hc : c.utf8Size = 1 :=
    Char.utf8Size_eq_one_iff.mpr <| UInt32.le_iff_toNat_le.mpr <| Nat.le_of_lt_succ h
  rw [encode_cons, String.utf8EncodeChar_eq_singleton hc]
  rfl

-- The bytes of the other characters are no characters of ASCII.
theorem encode_not_ascii (h : 128 ≤ c.toNat) : ∃ b ∈ (encode (c :: l))[0]?, 128 ≤ b.toNat := by
  have hor (a b : UInt8) (hb : 128 ≤ b.toNat) : 128 ≤ (a ||| b).toNat := by
    rw [UInt8.toNat_or]
    exact hb.trans Nat.right_le_or
  have hc : c.utf8Size ≠ 1 := by
    intro hc
    have hle := UInt32.le_iff_toNat_le.mp <| Char.utf8Size_eq_one_iff.mp hc
    exact absurd h <| Nat.not_le.mpr <| Nat.lt_succ_of_le hle
  have hs : c.utf8Size = 2 ∨ c.utf8Size = 3 ∨ c.utf8Size = 4 := by
    have h₁ := c.utf8Size_pos
    have h₄ := c.utf8Size_le_four
    omega
  rw [encode_cons]
  rcases hs with hs | hs | hs
  case inl     => exact ⟨_, by rw [String.utf8EncodeChar_eq_cons_cons hs]; rfl, hor _ _ (by decide)⟩
  case inr.inl =>
    exact ⟨_, by rw [String.utf8EncodeChar_eq_cons_cons_cons hs]; rfl, hor _ _ (by decide)⟩
  case inr.inr =>
    exact ⟨_, by rw [String.utf8EncodeChar_eq_cons_cons_cons_cons hs]; rfl, hor _ _ (by decide)⟩

end Text
