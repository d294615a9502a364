import OsintCore.Extraction.UrlTail
import OsintCore.Objects.Theorems.Utf8

namespace UrlTail

variable {l p : List Char} {c : Char} {raw : String}

-- A text which ends neither with punctuation nor with a bracket which has not been opened.
def Ends (l : List Char) : Prop :=
  ∀ c ∈ l.getLast?, c ∉ punctuation ∧ (c = ')' → l.count ')' ≤ l.count '(') ∧
    (c = ']' → l.count ']' ≤ l.count '[')

instance : Decidable (Ends l) :=
  inferInstanceAs (Decidable (∀ c ∈ l.getLast?, _))

theorem ends_nil : Ends [] :=
  nofun

theorem ends_concat : Ends (l ++ [c]) ↔ ¬strip (l ++ [c]) c := by
  have hp : ')' ∉ punctuation := by decide
  have hb : ']' ∉ punctuation := by decide
  simp only [Ends, List.getLast?_append_of_ne_nil _ (List.cons_ne_nil c []), List.getLast?_singleton,
    Option.mem_def, Option.some.injEq, forall_eq', strip]
  split_ifs with h₁ h₂ h₃
  case pos => simp [h₁]
  case pos => subst h₂; simpa using fun _ => hp
  case pos => subst h₃; simpa using fun _ => hb
  case neg => simp [h₁, h₂, h₃]

-- What the loop arrives at.
def ending (l : List Char) : List Char :=
  l.reverseRecOn [] fun front c kept => if strip (front ++ [c]) c then kept else front ++ [c]

@[simp]
theorem ending_nil : ending [] = [] := by
  simp [ending]

theorem ending_concat : ending (l ++ [c]) =
    if strip (l ++ [c]) c then ending l else l ++ [c] := by
  rw [ending, List.reverseRecOn_concat]
  rfl

theorem sliceTo_eq (h : p <+: raw.toList) : Text.sliceTo raw (Text.byteLen p) = .ok (.ofList p) := by
  have ⟨q, hq⟩ := h
  simp [Text.sliceTo, Text.splitAtByte_eq_some.mpr ⟨hq.symm, rfl⟩]

-- The loop only stops at the boundaries of characters.
theorem trimFrom_eq (h : p <+: raw.toList) :
    trimFrom raw (Text.byteLen p) = .ok (.ofList (ending p)) := by
  induction p using List.reverseRecOn
  case nil =>
    rw [trimFrom, if_pos Text.byteLen_nil, sliceTo_eq h, ending_nil]
  case append_singleton p c hi =>
    have hs := c.utf8Size_pos
    have hn : ¬Text.byteLen (p ++ [c]) = 0 := by simp; omega
    have hl : Text.byteLen (p ++ [c]) - c.utf8Size = Text.byteLen p := by simp
    have hp : p <+: raw.toList := (List.prefix_append p [c]).trans h
    rw [trimFrom, if_neg hn, sliceTo_eq h, ending_concat]
    simp only [bind, Except.bind, String.toList_ofList, List.getLast?_concat]
    rw [hl, hi hp]
    split_ifs <;> rfl

theorem ending_prefix : ending l <+: l := by
  induction l using List.reverseRecOn
  case nil => rw [ending_nil]
  case append_singleton l c hi =>
    rw [ending_concat]
    split_ifs
    case pos => exact hi.trans <| List.prefix_append ..
    case neg => exact List.prefix_rfl

theorem ends_ending : Ends (ending l) := by
  induction l using List.reverseRecOn
  case nil =>
    rw [ending_nil]
    exact ends_nil
  case append_singleton l c hi =>
    rw [ending_concat]
    split_ifs with h
    case pos => exact hi
    case neg => exact ends_concat.mpr h

theorem ending_eq_self (h : Ends l) : ending l = l := by
  cases l using List.reverseRecOn
  case nil => exact ending_nil
  case append_singleton l c => rw [ending_concat, if_neg (ends_concat.mp h)]

-- No prefix which ends well is longer.
theorem prefix_ending (h : p <+: l) (hp : Ends p) : p <+: ending l := by
  induction l using List.reverseRecOn
  case nil => rwa [ending_nil]
  case append_singleton l c hi =>
    rw [ending_concat]
    split_ifs with hs
    case neg => exact h
    case pos =>
      rcases List.prefix_concat_iff.mp h with he | he
      case inl => exact absurd hs (ends_concat.mp (he ▸ hp))
      case inr => exact hi he

-- What is left of a URL when its tail has been taken off.
structure Trimmed (raw out : String) : Prop where
  front      : out.toList <+: raw.toList
  boundary   : Text.isCharBoundary raw (Text.byteLen out.toList)
  unchanged  : Ends raw.toList → out = raw
  idempotent : trimUrlTail out = .ok out
  ends       : Ends out.toList
  longest    : ∀ p, p <+: raw.toList → Ends p → p.length ≤ out.toList.length
  balanced   : ∀ p c, p ++ [c] <+: raw.toList →
    c = ')' ∧ (p ++ [c]).count ')' ≤ (p ++ [c]).count '(' ∨
      c = ']' ∧ (p ++ [c]).count ']' ≤ (p ++ [c]).count '[' → p ++ [c] <+: out.toList

theorem trimUrlTail_eq (raw : String) : trimUrlTail raw = .ok (.ofList (ending raw.toList)) :=
  trimFrom_eq List.prefix_rfl

theorem ends_of_balanced (h : c = ')' ∧ (l ++ [c]).count ')' ≤ (l ++ [c]).count '(' ∨
    c = ']' ∧ (l ++ [c]).count ']' ≤ (l ++ [c]).count '[') : Ends (l ++ [c]) := by
  intro d hd
  rw [List.getLast?_concat] at hd
  have hd : c = d := Option.some.inj hd
  subst hd
  rcases h with ⟨hc, hle⟩ | ⟨hc, hle⟩
  case inl =>
    subst hc
    exact ⟨by decide, fun _ => hle, fun h => absurd h (by decide)⟩
  case inr =>
    subst hc
    exact ⟨by decide, fun h => absurd h (by decide), fun _ => hle⟩

theorem trimUrlTail_trimmed (raw : String) : ∃ out, trimUrlTail raw = .ok out ∧ Trimmed raw out := by
  refine ⟨_, trimUrlTail_eq raw, ?_⟩
  have ⟨rest, hr⟩ := ending_prefix (l := raw.toList)
  constructor
  case front      => simpa using ending_prefix
  case boundary   => exact Text.isCharBoundary_iff.mpr ⟨_, rest, hr.symm, by simp⟩
  case unchanged  => exact fun h => by rw [ending_eq_self h, String.ofList_toList]
  case idempotent => rw [trimUrlTail_eq, String.toList_ofList, ending_eq_self ends_ending]
  case ends       => simpa using ends_ending
  case longest    => exact fun p h hp => by simpa using (prefix_ending h hp).length_le
  case balanced   =>
    intro p c h hb
    simpa using prefix_ending h (ends_of_balanced hb)

end UrlTail
