import OsintCore.Objects.Theorems.Text
import OsintCore.Url.Theorems.OneHost

open PercentEncoding

namespace UrlNorm

variable {lib : UrlLib} {u v : ParsedUrl} {raw : String}

section Spaces

theorem head_spaces {n : Nat} : ∀ c ∈ (List.replicate n ' ').head?, toDigit16 c = none := by
  intro c hc
  have hc : c = ' ' := List.eq_of_mem_replicate <| List.mem_of_mem_head? hc
  exact hc ▸ by decide

theorem trimEndMatches_eq (s : String) : ∃ n, s.toList =
    (Text.trimEndMatches ' ' s).toList ++ List.replicate n ' ' := by
  refine ⟨(s.toList.reverse.takeWhile (· = ' ')).length, ?_⟩
  have ht : s.toList.reverse.takeWhile (· = ' ') =
      List.replicate (s.toList.reverse.takeWhile (· = ' ')).length ' ' :=
    List.eq_replicate_of_mem fun c hc => by simpa using List.mem_takeWhile_imp hc
  have hs := congrArg List.reverse <| List.takeWhile_append_dropWhile (p := (· = ' ')) (l := s.toList.reverse)
  rw [List.reverse_append, ht, List.reverse_replicate, List.reverse_reverse] at hs
  simpa [Text.trimEndMatches] using hs.symm

theorem settled_spaces {n : Nat} : Settled (List.replicate n ' ') :=
  settled_of_not_mem fun h => absurd (List.eq_of_mem_replicate h) (by decide)

theorem clean_spaces {t : List Char} {n : Nat} :
    Clean (t ++ List.replicate n ' ') ↔ Clean t := by
  rw [← settled_normalize, ← settled_normalize, normalize_append head_spaces,
    normalize_eq_self.mpr settled_spaces, settled_append head_spaces, and_iff_left settled_spaces]

theorem clean_stripTrailingSpaces :
    Clean u.stripTrailingSpaces.path.toList ↔ Clean u.path.toList := by
  unfold ParsedUrl.stripTrailingSpaces
  split_ifs
  case neg => rfl
  case pos =>
    have ⟨n, hn⟩ := trimEndMatches_eq u.path
    rw [hn]
    exact clean_spaces.symm

end Spaces

section Bare

-- Nothing but the path is left to be normalized.
structure Bared (lib : UrlLib) (u : ParsedUrl) : Prop where
  fragment : u.fragment = none
  userinfo : ¬u.cannotHaveUserinfo → u.username = "" ∧ u.password = none
  query    : ∀ q ∈ u.query, keptPairs lib u ≠ [] ∧ q = lib.formSerialize (keptPairs lib u)

theorem keptPairs_congr (h : u.query = v.query) : keptPairs lib u = keptPairs lib v := by
  unfold keptPairs ParsedUrl.queryPairs
  rw [h]

theorem removeFragment_query : u.removeFragment.query = u.query := by
  unfold ParsedUrl.removeFragment ParsedUrl.stripTrailingSpaces
  split_ifs <;> rfl

theorem removeUserinfo_query : u.removeUserinfo.query = u.query := by
  unfold ParsedUrl.removeUserinfo
  split_ifs <;> rfl

-- The pairs which have been kept are kept again.
theorem sortPairs_filter_keptPairs :
    sortPairs ((keptPairs lib u).filter (¬isTrackingParam ·.fst)) = keptPairs lib u := by
  have hp : (keptPairs lib u).Perm ((u.queryPairs lib).filter (¬isTrackingParam ·.fst)) :=
    List.perm_insertionSort ..
  have hf : (keptPairs lib u).filter (¬isTrackingParam ·.fst) = keptPairs lib u :=
    List.filter_eq_self.mpr fun a ha => (List.mem_filter.mp <| hp.mem_iff.mp ha).right
  rw [hf]
  exact List.Pairwise.insertionSort_eq <| List.pairwise_insertionSort ..

theorem keptPairs_setQueryPairs (h : lib.Lawful) (hu : lib.IsUrl u) (hk : keptPairs lib u ≠ []) :
    keptPairs lib (v.setQueryPairs lib (keptPairs lib u)) = keptPairs lib u := by
  have hq : (v.setQueryPairs lib (keptPairs lib u)).queryPairs lib = keptPairs lib u := h.form u hu hk
  rw [keptPairs, hq, sortPairs_filter_keptPairs]

theorem Bared.of_query_none (hf : u.fragment = none)
    (hi : ¬u.cannotHaveUserinfo → u.username = "" ∧ u.password = none) (hq : u.query = none) :
    Bared lib u :=
  ⟨hf, hi, fun _ h => absurd (hq ▸ h) nofun⟩

theorem removeFragment_fragment : u.removeFragment.fragment = none := by
  unfold ParsedUrl.removeFragment ParsedUrl.stripTrailingSpaces
  split_ifs <;> rfl

theorem removeUserinfo_fragment : u.removeUserinfo.fragment = u.fragment := by
  unfold ParsedUrl.removeUserinfo
  split_ifs <;> rfl

theorem removeUserinfo_userinfo (h : ¬u.removeUserinfo.cannotHaveUserinfo) :
    u.removeUserinfo.username = "" ∧ u.removeUserinfo.password = none := by
  unfold ParsedUrl.removeUserinfo at h ⊢
  split_ifs at h ⊢ with hc
  case pos => exact absurd hc h
  case neg => exact ⟨rfl, rfl⟩

-- The URL without its query, as far as no path is concerned.
theorem removeQuery_eq : ∃ path, u.removeQuery = { u with query := none, path } := by
  unfold ParsedUrl.removeQuery ParsedUrl.stripTrailingSpaces
  split_ifs
  case pos => exact ⟨_, rfl⟩
  case neg => exact ⟨_, rfl⟩

theorem bared_bare (h : lib.Lawful) (hu : lib.IsUrl u) : Bared lib (bare lib u) := by
  have hf : u.removeFragment.removeUserinfo.fragment = none :=
    removeUserinfo_fragment.trans removeFragment_fragment
  have hi := removeUserinfo_userinfo (u := u.removeFragment)
  have hq : u.removeFragment.removeUserinfo.query = u.query :=
    removeUserinfo_query.trans removeFragment_query
  have hk : keptPairs lib u.removeFragment.removeUserinfo = keptPairs lib u := keptPairs_congr hq
  unfold bare normalizeQuery
  rw [hq, hk]
  split_ifs with hs he
  case pos =>
    have ⟨path, hr⟩ := removeQuery_eq (u := u.removeFragment.removeUserinfo)
    rw [hr]
    exact .of_query_none hf hi rfl
  case neg =>
    refine ⟨hf, hi, fun q hq => ?_⟩
    rw [keptPairs_setQueryPairs h hu he]
    exact ⟨he, (Option.some.inj hq).symm⟩
  case neg => exact .of_query_none hf hi <| by rw [hq]; simpa using hs

theorem Bared.setPath (hb : Bared lib u) {path : String} : Bared lib (u.setPath lib path) where
  fragment := hb.fragment
  userinfo := hb.userinfo
  query    := hb.query

theorem Bared.bare_eq (hb : Bared lib u) (hs : u.stripTrailingSpaces = u) : bare lib u = u := by
  have hf : u.removeFragment = u := by
    have he : { u with fragment := none } = u := by rw [← hb.fragment]
    rw [ParsedUrl.removeFragment, he, hs]
  have hi : u.removeUserinfo = u := by
    unfold ParsedUrl.removeUserinfo
    split_ifs with hc
    case pos => rfl
    case neg =>
      have ⟨hn, hp⟩ := hb.userinfo hc
      rw [← hn, ← hp]
  unfold bare normalizeQuery
  rw [hf, hi]
  cases hq : u.query
  case none => simp
  case some q =>
    have ⟨hk, hq'⟩ := hb.query q hq
    simp only [Option.isSome_some, if_true, if_neg hk, ParsedUrl.setQueryPairs]
    rw [← hq', ← hq]

end Bare

section Path

theorem path_removeUserinfo : u.removeUserinfo.path = u.path := by
  unfold ParsedUrl.removeUserinfo
  split_ifs <;> rfl

theorem clean_bare : Clean (bare lib u).path.toList ↔ Clean u.path.toList := by
  have hf : Clean u.removeFragment.removeUserinfo.path.toList ↔ Clean u.path.toList := by
    rw [path_removeUserinfo]
    exact clean_stripTrailingSpaces (u := { u with fragment := none })
  unfold bare normalizeQuery
  split_ifs
  case neg => exact hf
  case pos =>
    exact (clean_stripTrailingSpaces (u := { u.removeFragment.removeUserinfo with query := none })).trans hf
  case neg => exact hf

theorem fillPath_ne (h : lib.Lawful) : (fillPath lib u).path ≠ "" := by
  unfold fillPath
  split_ifs with hp
  case neg => exact hp
  case pos =>
    simp only [ParsedUrl.setPath, h.root]
    split_ifs <;> decide

theorem clean_fillPath (h : lib.Lawful) (hc : Clean u.path.toList) :
    Clean (fillPath lib u).path.toList := by
  unfold fillPath
  split_ifs with hp
  case neg => exact hc
  case pos =>
    simp only [ParsedUrl.setPath, h.root]
    rw [← settled_normalize]
    split_ifs
    case pos => exact normalize_eq_self.mp (by decide +kernel)
    case neg => exact normalize_eq_self.mp (by decide +kernel)

theorem settlePath_of_eq (hp : normalPath u.path = u.path) : settlePath lib u = u :=
  if_neg <| not_not.mpr hp

theorem settlePath_of_ne (hp : normalPath u.path ≠ u.path) :
    settlePath lib u = u.setPath lib (normalPath u.path) :=
  if_pos hp

theorem toList_normalPath {path : String} : (normalPath path).toList = normalize path.toList :=
  String.toList_ofList

theorem normalPath_eq_self {path : String} : normalPath path = path ↔ Settled path.toList := by
  rw [← normalize_eq_self, ← toList_normalPath, String.toList_inj]

theorem settled_settlePath (h : lib.Lawful) (hu : lib.IsUrl u) (hc : Clean u.path.toList) :
    Settled (settlePath lib u).path.toList := by
  by_cases hp : normalPath u.path = u.path
  case pos =>
    rw [settlePath_of_eq hp]
    exact normalPath_eq_self.mp hp
  case neg =>
    have hs : Settled (normalPath u.path).toList := toList_normalPath ▸ settled_normalize.mpr hc
    rw [settlePath_of_ne hp]
    refine settled_segments.mpr fun s hm => ?_
    by_cases hp : '%' ∈ s
    case neg => exact settled_of_not_mem hp
    case pos =>
      have ⟨s', hm', hi⟩ := h.copies u hu s hm hp
      exact (settled_segments.mp hs s' hm').of_within hi

theorem settlePath_ne (h : lib.Lawful) (hu : lib.IsUrl u) (hn : u.path ≠ "") :
    (settlePath lib u).path ≠ "" := by
  by_cases hp : normalPath u.path = u.path
  case pos => rwa [settlePath_of_eq hp]
  case neg =>
    rw [settlePath_of_ne hp]
    exact h.filled u hu hn

theorem Bared.fillPath (hb : Bared lib u) : Bared lib (fillPath lib u) := by
  unfold UrlNorm.fillPath
  split_ifs
  case pos => exact hb.setPath
  case neg => exact hb

theorem Bared.settlePath (hb : Bared lib u) : Bared lib (settlePath lib u) := by
  by_cases hp : normalPath u.path = u.path
  case pos => rwa [settlePath_of_eq hp]
  case neg =>
    rw [settlePath_of_ne hp]
    exact hb.setPath

end Path

theorem isUrl_settle (h : lib.Lawful) (hu : lib.IsUrl u) : lib.IsUrl (settle lib u) :=
  h.settle _ <| h.fill _ <| h.bare _ hu

theorem bared_settle (h : lib.Lawful) (hu : lib.IsUrl u) : Bared lib (settle lib u) :=
  (bared_bare h hu).fillPath.settlePath

-- What is left to be done for a settled URL is nothing.
theorem settle_eq_self (h : lib.Lawful) (hu : lib.IsUrl u) (hb : Bared lib u) (hp : u.path ≠ "")
    (hs : Settled u.path.toList) : settle lib u = u := by
  rw [settle, hb.bare_eq (h.strips u hu), fillPath, if_neg hp,
    settlePath_of_eq (normalPath_eq_self.mpr hs)]

theorem settle_settle (h : lib.Lawful) (hu : lib.IsUrl u) (hc : Clean u.path.toList) :
    settle lib (settle lib u) = settle lib u := by
  have hf : lib.IsUrl (fillPath lib (bare lib u)) := h.fill _ <| h.bare _ hu
  have hp : (settle lib u).path ≠ "" := by
    rw [settle]
    exact settlePath_ne h hf <| fillPath_ne h
  have hs : Settled (settle lib u).path.toList := by
    rw [settle]
    exact settled_settlePath h hf <| clean_fillPath h <| clean_bare.mpr hc
  exact settle_eq_self h (isUrl_settle h hu) (bared_settle h hu) hp hs

-- To normalize a URL twice is to normalize it once, where its path hides no escapes.
theorem canonicalize_idempotent_iff (lib : UrlLib) (h : lib.Lawful) (raw : String) :
    ((∀ c, canonicalize lib raw = .ok (some c) → canonicalize lib c = .ok (some c)) ∧
      ∀ u, lib.parse (Text.trim raw) = some u → ∀ q, normalizePercentEncoding u.path = .ok q →
        normalizePercentEncoding q = .ok q) ↔
    ∀ u, lib.parse (Text.trim raw) = some u → Clean u.path.toList := by
  constructor
  case mp =>
    intro ⟨_, hn⟩ u hu
    have hq := hn u hu _ <| normalizePercentEncoding_eq u.path
    rw [normalizePercentEncoding_eq] at hq
    rw [← normalize_normalize]
    simpa using congrArg String.toList <| Except.ok.inj hq
  case mpr =>
    intro hc
    refine ⟨fun c hcan => ?_, fun u hu q hq => ?_⟩
    case _ =>
      rw [canonicalize_eq] at hcan
      have ⟨u, hu, ht⟩ := Option.map_eq_some_iff.mp <| Except.ok.inj hcan
      have hs := h.reads _ <| isUrl_settle h ⟨_, hu⟩
      rw [← ht, canonicalize_eq, hs, Option.map_some, settle_settle h ⟨_, hu⟩ (hc u hu)]
    case _ =>
      rw [normalizePercentEncoding_eq] at hq
      have hq := Except.ok.inj hq
      rw [← hq, normalizePercentEncoding_eq, String.toList_ofList,
        normalize_normalize.mpr (hc u hu)]

-- An encoded tilde is decoded, and nothing more.
theorem canonicalize_idempotent_iff_tilde :
    (∀ c, canonicalize OneHost.lib "http://h/%7Ea" = .ok (some c) →
      canonicalize OneHost.lib c = .ok (some c)) ∧
    ∀ u, OneHost.lib.parse (Text.trim "http://h/%7Ea") = some u → ∀ q,
      normalizePercentEncoding u.path = .ok q → normalizePercentEncoding q = .ok q := by
  refine (canonicalize_idempotent_iff OneHost.lib OneHost.lawful _).mpr fun u hu => ?_
  have hp : (OneHost.lib.parse (Text.trim "http://h/%7Ea")).map ParsedUrl.path = some "/%7Ea" := by
    decide +kernel
  have hu : u.path = "/%7Ea" := by
    rw [hu] at hp
    exact Option.some.inj hp
  rw [hu, ← normalize_normalize]
  decide +kernel

-- Behind the stray percent sign two digits come to stand.
theorem not_canonicalize_idempotent : ¬∀ raw c, canonicalize OneHost.lib raw = .ok (some c) →
    canonicalize OneHost.lib c = .ok (some c) := by
  intro h
  have h₁ : (OneHost.lib.parse (Text.trim "http://h/%%341")).map
      (OneHost.lib.text <| settle OneHost.lib ·) = some "http://h/%41" := by
    decide +kernel
  have h₂ : (OneHost.lib.parse (Text.trim "http://h/%41")).map
      (OneHost.lib.text <| settle OneHost.lib ·) = some "http://h/A" := by
    decide +kernel
  have hc := h "http://h/%%341" "http://h/%41" <| by rw [canonicalize_eq, h₁]
  rw [canonicalize_eq, h₂] at hc
  exact absurd (Option.some.inj <| Except.ok.inj hc) <| by decide

end UrlNorm
