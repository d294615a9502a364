import OsintCore.Fetch.Theorems.Guard
import OsintCore.Objects.Theorems.Text

-- A host as the guard spells it.
def PlainHost (host : String) : Prop :=
  (∀ c ∈ host.toList.head?, ¬Text.isWhitespace c) ∧
  (∀ c ∈ host.toList.getLast?, ¬Text.isWhitespace c ∧ c ≠ '.') ∧
  ∀ c ∈ host.toList, ¬c.isUpper

-- A URL has no host with a blank in it.
def Hostname (host : String) : Prop :=
  ∀ c ∈ host.toList, ¬Text.isWhitespace c

instance {host : String} : Decidable (Hostname host) :=
  decidable_of_iff (host.toList.all fun c => ¬Text.isWhitespace c) (by simp [Hostname])

open Text

variable {host : String}

theorem normalizeHost_eq_self : normalizeHost host = host ↔ PlainHost host := by
  have hl : (normalizeHost host).toList.length = (trimEndMatches '.' (trim host)).toList.length := by
    simp [normalizeHost, toAsciiLowercase]
  constructor
  case mp =>
    intro h
    rw [h] at hl
    -- Nothing gets lost, and so each of the three operations changes nothing.
    have he := trimEndMatches_sublist (c := '.') (s := trim host)
    have ht := trim_sublist (s := host)
    have ht := String.toList_inj.mp <| ht.eq_of_length_le (hl.le.trans he.length_le)
    rw [ht] at he hl
    have he := String.toList_inj.mp <| he.eq_of_length hl.symm
    rw [normalizeHost, ht, he, toAsciiLowercase_eq_self] at h
    rw [trim_eq_self] at ht
    rw [trimEndMatches_eq_self] at he
    exact ⟨ht.left, fun c hc => ⟨ht.right c hc, he c hc⟩, h⟩
  case mpr =>
    rintro ⟨h₁, h₂, h₃⟩
    have ht : trim host = host := trim_eq_self.mpr ⟨h₁, fun c hc => (h₂ c hc).left⟩
    have he : trimEndMatches '.' host = host := trimEndMatches_eq_self.mpr fun c hc => (h₂ c hc).right
    rw [normalizeHost, ht, he, toAsciiLowercase_eq_self.mpr h₃]

instance : Decidable (PlainHost host) :=
  decidable_of_iff _ normalizeHost_eq_self

theorem Hostname.trim_eq (h : Hostname host) : trim host = host :=
  trim_eq_self.mpr ⟨fun c hc => h c <| List.mem_of_mem_head? hc,
    fun c hc => h c <| List.mem_of_mem_getLast? hc⟩

theorem Hostname.of_normalizeHost (h : Hostname host) : Hostname (normalizeHost host) := by
  intro c hc
  simp only [normalizeHost, h.trim_eq, toAsciiLowercase, String.toList_ofList, List.mem_map] at hc
  obtain ⟨c, hc, rfl⟩ := hc
  exact isWhitespace_toLower <| h c (trimEndMatches_sublist.subset hc)

theorem Hostname.plain (h : Hostname host) : PlainHost (normalizeHost host) := by
  refine ⟨fun c hc => h.of_normalizeHost c <| List.mem_of_mem_head? hc,
    fun c hc => ⟨h.of_normalizeHost c <| List.mem_of_mem_getLast? hc, ?_⟩, fun c hc => ?_⟩
  case refine_1 =>
    simp only [normalizeHost, toAsciiLowercase, String.toList_ofList, List.getLast?_map,
      Option.mem_map] at hc
    obtain ⟨c, hc, rfl⟩ := hc
    exact toLower_ne_dot <| getLast?_trimEndMatches c hc
  case refine_2 =>
    simp only [normalizeHost, toAsciiLowercase, String.toList_ofList, List.mem_map] at hc
    obtain ⟨c, _, rfl⟩ := hc
    exact not_isUpper_toLower

-- The guard spells a host of a URL the same way each time.
theorem Hostname.normalizeHost_idem (h : Hostname host) :
    normalizeHost (normalizeHost host) = normalizeHost host :=
  normalizeHost_eq_self.mpr h.plain
