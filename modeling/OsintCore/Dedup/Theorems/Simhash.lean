import OsintCore.Dedup.Simhash
import OsintCore.Objects.Theorems.Unicode

-- The bits of fingerprints and hashes.
def Int64.bits (x : Int64) (i : Fin 64) : Bool :=
  x.toBitVec.getLsbD i

theorem Int64.bits_injective : Function.Injective Int64.bits := by
  intro a b h
  apply Int64.toBitVec_inj.mp
  exact BitVec.eq_of_getLsbD_eq fun i hi => congrFun h ⟨i, hi⟩

section HammingDistance

variable {a b c : Int64} {d d' : Nat}

theorem hammingDistance_eq : hammingDistance a b = hammingDist a.bits b.bits := by
  have hx (i : Fin 64) : (a ^^^ b).toBitVec.getLsbD i = decide (a.bits i ≠ b.bits i) := by
    rw [Int64.bits, Int64.bits, Int64.toBitVec_xor, BitVec.getLsbD_xor]
    cases a.toBitVec.getLsbD i <;> cases b.toBitVec.getLsbD i <;> rfl
  calc hammingDistance a b
    _ = ((List.finRange 64).map Fin.val).countP fun i => (a ^^^ b).toBitVec.getLsbD i := by
      rw [hammingDistance, List.map_coe_finRange_eq_range]
    _ = (List.finRange 64).countP fun i => decide (a.bits i ≠ b.bits i) := by
      rw [List.countP_map]
      congr 1
      exact funext hx
    _ = hammingDist a.bits b.bits := by
      rw [List.countP_eq_length_filter]
      rfl

theorem hammingDistance_le : hammingDistance a b ≤ 64 := by
  rw [hammingDistance_eq]
  exact hammingDist_le_card_fintype

theorem hammingDistance_eq_zero : hammingDistance a b = 0 ↔ a = b := by
  rw [hammingDistance_eq, hammingDist_eq_zero, Int64.bits_injective.eq_iff]

theorem hammingDistance_comm : hammingDistance a b = hammingDistance b a := by
  rw [hammingDistance_eq, hammingDistance_eq, hammingDist_comm]

theorem hammingDistance_triangle :
    hammingDistance a c ≤ hammingDistance a b + hammingDistance b c := by
  simp only [hammingDistance_eq]
  exact hammingDist_triangle _ _ _

open Deduplicator in
theorem simhashSimilarity_anti (h : d ≤ d') : simhashSimilarity d' ≤ simhashSimilarity d := by
  have hm : ((min d 64 : Nat) : ℚ) ≤ (min d' 64 : Nat) := by exact_mod_cast min_le_min_right 64 h
  rw [simhashSimilarity, simhashSimilarity]
  linarith

end HammingDistance

namespace Simhash

def bitOf (x : UInt64) (bit : Fin 64) : Bool :=
  x.toBitVec.getLsbD bit

section

variable {x y : UInt64} {i j : Fin 64}

theorem bitOf_mask : bitOf (mask i) j = decide (i = j) := by
  revert i j
  decide +kernel

theorem bitOf_or : bitOf (x ||| y) i = (bitOf x i || bitOf y i) := by
  simp [bitOf]

theorem bitOf_and : bitOf (x &&& y) i = (bitOf x i && bitOf y i) := by
  simp [bitOf]

theorem bitOf_zero : bitOf 0 i = false := by
  simp [bitOf]

theorem ext_bitOf (h : ∀ i, bitOf x i = bitOf y i) : x = y := by
  apply UInt64.toBitVec_inj.mp
  exact BitVec.eq_of_getLsbD_eq fun i hi => h ⟨i, hi⟩

theorem and_mask : x &&& mask i ≠ 0 ↔ bitOf x i := by
  constructor
  case mp =>
    intro h
    by_contra hb
    refine h <| ext_bitOf fun j => ?_
    rw [bitOf_and, bitOf_mask, bitOf_zero]
    by_cases hij : i = j
    case pos => simpa [← hij] using hb
    case neg => simp [hij]
  case mpr =>
    intro hb h
    have hi : bitOf (x &&& mask i) i := by rw [bitOf_and, bitOf_mask, hb]; simp
    rw [h, bitOf_zero] at hi
    cases hi

end

variable {w : Simhash} {tokens tokens' : List String} {i : Fin 64}

def vote (w : Simhash) (i : Fin 64) (token : String) : Int :=
  if bitOf (w.tokenHash token) i then 1 else -1

theorem weightsOf_eq : w.weightsOf tokens i = (tokens.map (w.vote i)).sum := by
  have hf (l : List String) (weights : Weights) :
      l.foldl w.addToken weights i = weights i + (l.map (w.vote i)).sum := by
    induction l generalizing weights
    case nil => simp
    case cons token l hi =>
      rw [List.foldl_cons, hi, List.map_cons, List.sum_cons, ← add_assoc]
      congr 1
      simp only [addToken, vote, and_mask]
      split <;> rfl
  rw [weightsOf, hf, zero_add]

theorem abs_sum_vote_le : |(tokens.map (w.vote i)).sum| ≤ tokens.length := by
  induction tokens
  case nil => simp
  case cons token tokens hi =>
    have hv : |w.vote i token| = 1 := by
      rw [vote]
      split <;> rfl
    calc |((token :: tokens).map (w.vote i)).sum|
      _ ≤ |w.vote i token| + |(tokens.map (w.vote i)).sum| := by
        rw [List.map_cons, List.sum_cons]
        exact abs_add_le _ _
      _ ≤ (token :: tokens).length := by
        rw [hv, List.length_cons]
        push_cast
        omega

theorem bits_fingerprintOfTokens :
    (w.fingerprintOfTokens tokens).bits i = decide (0 < w.weightsOf tokens i) := by
  have hf (l : List (Fin 64)) (out : UInt64) :
      bitOf (l.foldl (fun out bit =>
        if w.weightsOf tokens bit > 0 then out ||| mask bit else out) out) i =
      (bitOf out i || decide (i ∈ l ∧ 0 < w.weightsOf tokens i)) := by
    induction l generalizing out
    case nil => simp
    case cons bit l hi =>
      rw [List.foldl_cons, hi]
      by_cases hb : i = bit
      case pos =>
        subst hb
        by_cases hw : 0 < w.weightsOf tokens i
        case pos => simp [hw, bitOf_or, bitOf_mask]
        case neg => simp [hw]
      case neg =>
        have hm : bitOf (mask bit) i = false := by rw [bitOf_mask]; exact decide_eq_false (Ne.symm hb)
        simp only [List.mem_cons, hb, false_or]
        split
        case isTrue  => rw [bitOf_or, hm, Bool.or_false]
        case isFalse => rfl
  have h := hf (List.finRange 64) 0
  rw [bitOf_zero, Bool.false_or] at h
  simp only [List.mem_finRange, true_and] at h
  exact h

section Tokens

open Unicode (Spells)

def tokensOf (w : Simhash) (words : List (List Char)) : List String :=
  words.filter (1 < ·.length) |>.map fun t => w.unicode.toLowercase (.ofList t)

theorem filter_splitOnP {l : List Char} {words : List (List Char)}
    (h : Spells w.unicode l words) :
    (l.splitOnP (¬w.unicode.isAlphanumeric ·)).filter (1 < ·.length) =
      words.filter (1 < ·.length) := by
  induction h
  case nil => rfl
  case separator separates _ hi =>
    rw [List.splitOnP_cons_eq_if_modifyHead, if_pos (by simpa using separates)]
    exact hi
  case word t l words alphanumeric ends rest hi =>
    have ht : ∀ c ∈ t, (decide ¬w.unicode.isAlphanumeric c) = false := by simpa using alphanumeric
    cases l
    case nil =>
      rw [List.append_nil, List.splitOnP_eq_singleton ht, List.filter_cons, List.filter_cons, ← hi]
      rfl
    case cons c l =>
      have hc : (decide ¬w.unicode.isAlphanumeric c) = true := by simpa using ends
      rw [List.splitOnP_cons_eq_if_modifyHead, if_pos hc] at hi
      rw [List.splitOnP_append_cons_of_forall_mem ht c hc, List.filter_cons, List.filter_cons, ← hi]
      rfl

theorem tokenize_eq {text : String} {words : List (List Char)}
    (h : Spells w.unicode text.toList words) : w.tokenize text = w.tokensOf words := by
  rw [tokenize, split, filter_splitOnP h, tokensOf]

theorem tokensOf_toLower (h : w.unicode.Lawful) (words : List (List Char)) :
    w.tokensOf (words.map (·.map Char.toLower)) = w.tokensOf words := by
  have hl (t : List Char) :
      w.unicode.toLowercase (.ofList (t.map Char.toLower)) = w.unicode.toLowercase (.ofList t) := by
    have ht := h.toLowercase_toAsciiLowercase (s := .ofList t)
    rwa [Text.toAsciiLowercase, String.toList_ofList] at ht
  rw [tokensOf, tokensOf, List.filter_map, List.map_map]
  simp [Function.comp_def, hl]

end Tokens

section Stable

variable {s t : String}

theorem weightsOf_perm (h : tokens.Perm tokens') : w.weightsOf tokens = w.weightsOf tokens' := by
  funext i
  rw [weightsOf_eq, weightsOf_eq, (h.map _).sum_eq]

theorem fingerprint_perm (h : (w.tokenize s).Perm (w.tokenize t)) :
    w.fingerprint s = w.fingerprint t := by
  simp only [fingerprint, fingerprintOfTokens, weightsOf_perm h, h.length_eq]

theorem fingerprint_spells (h : w.unicode.Lawful) {words words' : List (List Char)}
    (hs : Unicode.Spells w.unicode s.toList words) (ht : Unicode.Spells w.unicode t.toList words')
    (hw : (words.map (·.map Char.toLower)).Perm (words'.map (·.map Char.toLower))) :
    w.fingerprint s = w.fingerprint t := by
  apply fingerprint_perm
  rw [tokenize_eq hs, tokenize_eq ht, ← tokensOf_toLower h words, ← tokensOf_toLower h words']
  exact (hw.filter _).map _

-- The tokens `b` stand in the place of the tokens `a`.
theorem abs_weightsOf_sub_le {common a b : List String} (hl : a.length = b.length)
    (hs : tokens.Perm (common ++ a)) (ht : tokens'.Perm (common ++ b)) :
    |w.weightsOf tokens i - w.weightsOf tokens' i| ≤ 2 * a.length := by
  have ha : |(a.map (w.vote i)).sum| ≤ a.length := abs_sum_vote_le
  have hb : |(b.map (w.vote i)).sum| ≤ a.length := hl ▸ abs_sum_vote_le
  calc |w.weightsOf tokens i - w.weightsOf tokens' i|
    _ = |(a.map (w.vote i)).sum - (b.map (w.vote i)).sum| := by
      rw [weightsOf_perm hs, weightsOf_perm ht, weightsOf_eq, weightsOf_eq]
      simp only [List.map_append, List.sum_append, add_sub_add_left_eq_sub]
    _ ≤ |(a.map (w.vote i)).sum| + |(b.map (w.vote i)).sum| := abs_sub _ _
    _ ≤ 2 * a.length := by omega

-- The bits of which `k` tokens can turn the sign.
def unsteady (w : Simhash) (tokens : List String) (k : Nat) : Finset (Fin 64) :=
  {i | |w.weightsOf tokens i| ≤ 2 * k}

-- A bit is set if its accumulator is above zero, so that a change of sign takes both near zero.
theorem unsteady_of_bits_ne {k : Nat}
    (hd : |w.weightsOf tokens i - w.weightsOf tokens' i| ≤ 2 * k)
    (hb : (w.fingerprintOfTokens tokens).bits i ≠ (w.fingerprintOfTokens tokens').bits i) :
    i ∈ w.unsteady tokens k ∩ w.unsteady tokens' k := by
  rw [bits_fingerprintOfTokens, bits_fingerprintOfTokens, ne_eq, decide_eq_decide] at hb
  have hd := abs_le.mp hd
  simp only [unsteady, Finset.mem_inter, Finset.mem_filter, Finset.mem_univ, true_and, abs_le]
  by_cases hs : 0 < w.weightsOf tokens i
  case pos =>
    have ht : ¬0 < w.weightsOf tokens' i := fun ht => hb <| iff_of_true hs ht
    omega
  case neg =>
    have ht : 0 < w.weightsOf tokens' i := by_contra fun ht => hb <| iff_of_false hs ht
    omega

structure Stable (w : Simhash) : Prop where
  tokens   : ∀ s t, (w.tokenize s).Perm (w.tokenize t) → w.fingerprint s = w.fingerprint t
  words    : ∀ s t words words', Unicode.Spells w.unicode s.toList words →
             Unicode.Spells w.unicode t.toList words' →
             (words.map (·.map Char.toLower)).Perm (words'.map (·.map Char.toLower)) →
             w.fingerprint s = w.fingerprint t
  replaced : ∀ s t common a b, (w.tokenize s).Perm (common ++ a) →
             (w.tokenize t).Perm (common ++ b) → a.length = b.length →
             minTokens ≤ (w.tokenize s).length → ∃ x y,
             w.fingerprint s = some x ∧ w.fingerprint t = some y ∧
             (∀ i, x.bits i ≠ y.bits i → i ∈ w.unsteady (w.tokenize s) a.length ∧
               i ∈ w.unsteady (w.tokenize t) a.length) ∧
             hammingDistance x y ≤ (w.unsteady (w.tokenize s) a.length).card ∧
             hammingDistance x y ≤ (w.unsteady (w.tokenize t) a.length).card

theorem replaced_unsteady {common a b : List String} (hs : (w.tokenize s).Perm (common ++ a))
    (ht : (w.tokenize t).Perm (common ++ b)) (hl : a.length = b.length)
    (hn : minTokens ≤ (w.tokenize s).length) : ∃ x y,
    w.fingerprint s = some x ∧ w.fingerprint t = some y ∧
    (∀ i, x.bits i ≠ y.bits i → i ∈ w.unsteady (w.tokenize s) a.length ∧
      i ∈ w.unsteady (w.tokenize t) a.length) ∧
    hammingDistance x y ≤ (w.unsteady (w.tokenize s) a.length).card ∧
    hammingDistance x y ≤ (w.unsteady (w.tokenize t) a.length).card := by
  have hlen : (w.tokenize t).length = (w.tokenize s).length := by
    rw [hs.length_eq, ht.length_eq, List.length_append, List.length_append, hl]
  have hb (i : Fin 64) (h : (w.fingerprintOfTokens (w.tokenize s)).bits i ≠
      (w.fingerprintOfTokens (w.tokenize t)).bits i) :
      i ∈ w.unsteady (w.tokenize s) a.length ∧ i ∈ w.unsteady (w.tokenize t) a.length :=
    Finset.mem_inter.mp <| unsteady_of_bits_ne (abs_weightsOf_sub_le hl hs ht) h
  refine ⟨_, _, if_neg (by omega), if_neg (by omega), hb, ?_, ?_⟩
  case refine_1 =>
    rw [hammingDistance_eq]
    exact Finset.card_le_card fun i hi => (hb i (Finset.mem_filter.mp hi).right).left
  case refine_2 =>
    rw [hammingDistance_eq]
    exact Finset.card_le_card fun i hi => (hb i (Finset.mem_filter.mp hi).right).right

end Stable

end Simhash

structure HammingMetric : Prop where
  le_64    : ∀ a b, hammingDistance a b ≤ 64
  eq_zero  : ∀ a b, hammingDistance a b = 0 ↔ a = b
  comm     : ∀ a b, hammingDistance a b = hammingDistance b a
  triangle : ∀ a b c, hammingDistance a c ≤ hammingDistance a b + hammingDistance b c

namespace Simhash

theorem simhash_stable (w : Simhash) (h : w.unicode.Lawful) :
    w.Stable ∧ HammingMetric ∧ Antitone Deduplicator.simhashSimilarity where
  left := {
    tokens   := fun _ _ => fingerprint_perm
    words    := fun _ _ _ _ => fingerprint_spells h
    replaced := fun _ _ _ _ _ => replaced_unsteady }
  right := {
    left := {
      le_64    := fun _ _ => hammingDistance_le
      eq_zero  := fun _ _ => hammingDistance_eq_zero
      comm     := fun _ _ => hammingDistance_comm
      triangle := fun _ _ _ => hammingDistance_triangle }
    right := fun _ _ => simhashSimilarity_anti }

-- Texts in ASCII, whose tokens are told apart by their first letter and their length.
def ascii : Simhash where
  unicode := Sample.ascii
  tokenHash token := match token.toList with
    | []     => 0
    | c :: l => .ofNat (c.toNat * 0x0101010101010101 + l.length)

theorem ascii_lawful : ascii.unicode.Lawful where
  isAlphanumeric c h   := by simp [ascii, Sample.ascii, Char.isAlphanum, h]
  isCased c h          := h
  isCaseIgnorable c h  := by
    intro hc
    have hc : c.toNat ∈ [39, 46, 58, 94, 96] := of_decide_eq_true hc
    have ha : 65 ≤ c.toNat ∧ c.toNat ≤ 90 ∨ 97 ≤ c.toNat ∧ c.toNat ≤ 122 := by
      simpa [Char.isAlpha, Char.isUpper, Char.isLower, UInt32.le_iff_toNat_le] using h
    simp only [List.mem_cons, List.not_mem_nil, or_false] at hc
    omega
  lower c h            := rfl

theorem simhash_stable_ascii :
    ascii.Stable ∧ HammingMetric ∧ Antitone Deduplicator.simhashSimilarity :=
  simhash_stable ascii ascii_lawful

end Simhash
