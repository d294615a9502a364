import OsintCore.Objects.Theorems.Text
import OsintCore.Url.Theorems.Canonical
import OsintCore.Url.Theorems.Pieces
import OsintCore.Url.Theorems.Segments

open PercentEncoding PathSegments UrlNorm

-- The URLs of one host which have a path of unreserved characters and escapes, and nothing else.
namespace OneHost

def start : List Char :=
  "http://h".toList

def url (t : List Char) : ParsedUrl where
  scheme        := "http"
  username      := ""
  password      := none
  host          := some "h"
  port          := none
  path          := .ofList t
  query         := none
  fragment      := none
  cannotBeABase := false

def isPathChar (c : Char) : Bool :=
  c = '/' || c = '%' || isUnreserved c.toNat

def isPath (t : List Char) : Bool :=
  t.head? = some '/' && t.all isPathChar

def lib : UrlLib where
  parse raw       :=
    let t := raw.toList.drop start.length
    if start <+: raw.toList ∧ isPath t then some (url <| resolveDots t) else none
  text u          := .ofList <| start ++ u.path.toList
  parsePath _ o t := if o then (if t = "/" then "%2F" else t) else .ofList (resolveDots t.toList)
  formParse _     := []
  formSerialize _ := ""

variable {t : List Char} {u : ParsedUrl} {c : Char}

theorem isPath_iff : isPath t ↔ t.head? = some '/' ∧ ∀ c ∈ t, isPathChar c := by
  simp [isPath]

theorem not_isWhitespace (h : isPathChar c) : ¬Text.isWhitespace c := by
  have hn : c.toNat < 128 ∧ 33 ≤ c.toNat := by
    simp only [isPathChar, isUnreserved, Char.ofNat_toNat, Char.isAlphanum, Char.isAlpha, Char.isUpper,
      Char.isLower, Char.isDigit, Bool.or_eq_true, Bool.and_eq_true, decide_eq_true_eq, ge_iff_le,
      UInt32.le_iff_toNat_le, ← Char.toNat_inj, show c.val.toNat = c.toNat from rfl,
      Char.reduceVal, Char.reduceToNat, UInt32.reduceToNat] at h
    omega
  simp only [Text.isWhitespace, decide_eq_true_eq]
  omega

theorem isPath_resolveDots (h : isPath t) : isPath (resolveDots t) := by
  refine isPath_iff.mpr ⟨head_resolveDots, fun c hc => ?_⟩
  rcases mem_resolveDots hc with hc | hc
  case inl => simp [hc, isPathChar]
  case inr => exact (isPath_iff.mp h).right c hc

theorem isUrl_iff : lib.IsUrl u ↔ ∃ t, isPath t ∧ NoDots (split t) ∧ u = url t := by
  constructor
  case mp =>
    intro ⟨raw, hr⟩
    simp only [lib] at hr
    split_ifs at hr with h
    exact ⟨_, isPath_resolveDots h.right, noDots_resolveDots, (Option.some.inj hr).symm⟩
  case mpr =>
    intro ⟨t, ht, hd, hu⟩
    refine ⟨.ofList (start ++ t), ?_⟩
    have hn := resolveDots_eq_self (isPath_iff.mp ht).left hd
    simp [lib, ht, hn, hu]

theorem isPath_normalize (h : isPath t) : isPath (normalize t) := by
  refine isPath_iff.mpr ⟨head_normalize (by decide) (isPath_iff.mp h).left, fun c hc => ?_⟩
  rcases mem_normalize hc with hc | hc | hc
  case inl     => exact (isPath_iff.mp h).right c hc
  case inr.inl => simp [hc, isPathChar]
  case inr.inr => simp [hc, isPathChar]

theorem bare_url : bare lib (url t) = url t :=
  rfl

theorem fillPath_url (h : isPath t) : fillPath lib (url t) = url t := by
  refine if_neg fun he => ?_
  have ht : t = [] := by simpa [url] using congrArg String.toList he
  exact absurd (ht ▸ h) (by decide)

theorem trim_text (h : isPath t) : Text.trim (.ofList (start ++ t)) = .ofList (start ++ t) := by
  refine Text.trim_eq_self.mpr ⟨fun c hc => ?_, fun c hc => ?_⟩
  case _ =>
    have hs : start.head? = some 'h' := rfl
    rw [String.toList_ofList, List.head?_append, hs, Option.some_or] at hc
    have hc : 'h' = c := Option.some.inj hc
    subst hc
    decide
  case _ =>
    have hn : t ≠ [] := fun he => absurd (he ▸ h) (by decide)
    rw [String.toList_ofList, List.getLast?_append_of_ne_nil _ hn] at hc
    exact not_isWhitespace <| (isPath_iff.mp h).right c <| List.mem_of_getLast? hc

theorem lawful : lib.Lawful where
  reads u hu := by
    obtain ⟨t, ht, hd, he⟩ := isUrl_iff.mp hu
    have hn := resolveDots_eq_self (isPath_iff.mp ht).left hd
    have htext : lib.text u = .ofList (start ++ t) := by simp [he, lib, url]
    rw [htext, trim_text ht]
    simp [lib, ht, hn, he]
  bare u hu := by
    obtain ⟨t, _, _, he⟩ := isUrl_iff.mp hu
    rwa [he, bare_url, ← he]
  fill u hu := by
    obtain ⟨t, ht, _, he⟩ := isUrl_iff.mp hu
    rwa [he, fillPath_url ht, ← he]
  settle u hu := by
    obtain ⟨t, ht, hd, he⟩ := isUrl_iff.mp hu
    have hn : isPath (normalPath u.path).toList := by
      simpa [he, url, normalPath] using isPath_normalize ht
    unfold settlePath
    split_ifs
    case neg => exact hu
    case pos => exact isUrl_iff.mpr ⟨_, isPath_resolveDots hn, noDots_resolveDots, by rw [he]; rfl⟩
  strips u hu := by
    obtain ⟨t, _, _, he⟩ := isUrl_iff.mp hu
    rw [he]
    rfl
  form u hu hk := by
    obtain ⟨t, _, _, he⟩ := isUrl_iff.mp hu
    exact absurd (he ▸ rfl) hk
  root scheme o := by cases o <;> rfl
  filled u hu hp := by
    obtain ⟨t, _, _, he⟩ := isUrl_iff.mp hu
    rw [he]
    intro hr
    simpa [lib, url, resolveDots, join] using congrArg String.toList hr
  copies u hu s hs hp := by
    obtain ⟨t, ht, _, he⟩ := isUrl_iff.mp hu
    have hh : (normalPath u.path).toList.head? = some '/' := by
      simpa [he, url, normalPath] using (isPath_iff.mp <| isPath_normalize ht).left
    have hs : s ∈ (resolveDots (normalPath u.path).toList).splitOn '/' := by
      simpa [he, lib, url] using hs
    rw [splitOn_eq head_resolveDots, split_resolveDots] at hs
    have hs : s = [] ∨ s ∈ split (normalPath u.path).toList := by
      rcases List.mem_cons.mp hs with hs | hs
      case inl => exact .inl hs
      case inr => exact (mem_resolve hs).imp_right fun hs => hs.resolve_left List.not_mem_nil
    refine ⟨s, ?_, List.infix_rfl⟩
    rw [splitOn_eq hh]
    exact List.mem_cons_of_mem _ <| hs.resolve_left fun hs => absurd (hs ▸ hp) List.not_mem_nil

end OneHost
