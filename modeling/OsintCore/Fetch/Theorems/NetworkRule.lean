import OsintCore.Fetch.NetworkRule

namespace Ip

-- The metadata services which have an address of version 4, as four octets and as two segments.
def metadataV4 : List (UInt8 × UInt8 × UInt8 × UInt8) :=
  [(169, 254, 169, 254), (100, 100, 100, 200), (169, 254, 169, 253), (168, 63, 129, 16)]

def metadataSegments : List (UInt16 × UInt16) :=
  [(0xa9fe, 0xa9fe), (0x6464, 0x64c8), (0xa9fe, 0xa9fd), (0xa83f, 0x8110)]

-- The addresses of version 6 which stand for such an address: mapped, and compatible.
def embedded : List Ip :=
  [0xffff, 0].flatMap fun f => metadataSegments.map fun (g, h) => .v6 0 0 0 0 0 f g h

theorem octets_eq {s : UInt16} {a b : UInt8} :
    octets s = (a, b) ↔ s.toNat = a.toNat * 2 ^ 8 + b.toNat := by
  have hs := s.toNat_lt
  have ha := a.toNat_lt
  have hb := b.toNat_lt
  simp only [octets, Prod.mk.injEq, ← UInt8.toNat_inj, UInt16.toNat_toUInt8,
    UInt16.toNat_shiftRight, Nat.shiftRight_eq_div_pow, UInt16.reduceToNat,
    Nat.reduceMod, Nat.reducePow]
  omega

theorem classifyV4_eq_hardDeny {a b c d : UInt8} :
    classifyV4 a b c d = .hardDeny ↔ (a, b, c, d) ∈ metadataV4 := by
  have hm : [a, b, c, d] ∈ [[169, 254, 169, 254], [100, 100, 100, 200], [169, 254, 169, 253],
      [168, 63, 129, 16]] ↔ (a, b, c, d) ∈ metadataV4 := by
    simp [metadataV4]
  rw [← hm]
  unfold classifyV4
  split_ifs with h <;> simp [h]

theorem octets_eq_iff {s t : UInt16} : octets s = octets t ↔ s = t := by
  have ht : t.toNat = (octets t).fst.toNat * 2 ^ 8 + (octets t).snd.toNat := octets_eq.mp rfl
  rw [← UInt16.toNat_inj, ht, ← octets_eq]

theorem classifyEmbedded_eq_hardDeny {g h : UInt16} :
    classifyEmbedded g h = .hardDeny ↔ (g, h) ∈ metadataSegments := by
  have hm (g' h' : UInt16) : ((octets g).fst, (octets g).snd, (octets h).fst, (octets h).snd) =
      ((octets g').fst, (octets g').snd, (octets h').fst, (octets h').snd) ↔ (g, h) = (g', h') := by
    rw [Prod.mk.injEq g, ← octets_eq_iff (t := g'), ← octets_eq_iff (t := h')]
    simp only [Prod.ext_iff, and_assoc]
  rw [classifyEmbedded, classifyV4_eq_hardDeny]
  simp only [metadataV4, metadataSegments, List.mem_cons, List.not_mem_nil, or_false]
  exact or_congr (hm 0xa9fe 0xa9fe) <| or_congr (hm 0x6464 0x64c8) <|
    or_congr (hm 0xa9fe 0xa9fd) (hm 0xa83f 0x8110)

theorem mem_embedded {a b c d e f g h : UInt16} : .v6 a b c d e f g h ∈ embedded ↔
    (g, h) ∈ metadataSegments ∧
      ([a, b, c, d, e, f] = [0, 0, 0, 0, 0, 0xffff] ∨ [a, b, c, d, e, f] = [0, 0, 0, 0, 0, 0]) := by
  simp only [embedded, List.mem_flatMap, List.mem_map, Prod.exists, List.mem_cons, List.not_mem_nil,
    or_false, Ip.v6.injEq, List.cons.injEq, and_true]
  constructor
  case mp =>
    rintro ⟨f, hf, g, h, hm, rfl, rfl, rfl, rfl, rfl, rfl, rfl, rfl⟩
    exact ⟨hm, by simpa using hf⟩
  case mpr =>
    rintro ⟨hm, ⟨rfl, rfl, rfl, rfl, rfl, rfl⟩ | ⟨rfl, rfl, rfl, rfl, rfl, rfl⟩⟩
    case inl => exact ⟨_, .inl rfl, g, h, hm, rfl, rfl, rfl, rfl, rfl, rfl, rfl, rfl⟩
    case inr => exact ⟨_, .inr rfl, g, h, hm, rfl, rfl, rfl, rfl, rfl, rfl, rfl, rfl⟩

theorem classifyV6_eq_hardDeny {a b c d e f g h : UInt16} : classifyV6 a b c d e f g h = .hardDeny ↔
    [a, b, c, d, e, f, g, h] = [0xfd00, 0xec2, 0, 0, 0, 0, 0, 0x254] ∨
      (g, h) ∈ metadataSegments ∧
        ([a, b, c, d, e, f] = [0, 0, 0, 0, 0, 0xffff] ∨ [a, b, c, d, e, f] = [0, 0, 0, 0, 0, 0]) := by
  unfold classifyV6
  split_ifs with h₁ h₂ h₃ h₄ h₅ h₆ h₇
  case pos =>
    rw [classifyEmbedded_eq_hardDeny]
    simp_all
  case pos => simp [h₂]
  case pos =>
    refine iff_of_false nofun fun h => h.elim h₂ fun ⟨hm, hs⟩ => ?_
    simp_all [metadataSegments]
  case pos =>
    refine iff_of_false nofun fun h => h.elim h₂ fun ⟨_, hs⟩ => ?_
    obtain rfl : a = 0 := hs.elim (List.cons.inj · |>.left) (List.cons.inj · |>.left)
    simp at h₄
  case pos =>
    refine iff_of_false nofun fun h => h.elim h₂ fun ⟨_, hs⟩ => ?_
    obtain rfl : a = 0 := hs.elim (List.cons.inj · |>.left) (List.cons.inj · |>.left)
    simp at h₅
  case pos =>
    refine iff_of_false nofun fun h => h.elim h₂ fun ⟨_, hs⟩ => ?_
    obtain rfl : a = 0 := hs.elim (List.cons.inj · |>.left) (List.cons.inj · |>.left)
    simp at h₆
  case pos =>
    rw [classifyEmbedded_eq_hardDeny]
    simp_all
  case neg => simp [h₁, h₂, h₇]

-- The addresses which no rule can let pass.
theorem classify_eq_hardDeny {ip : Ip} : ip.classify = .hardDeny ↔
    ip ∈ metadataV4.map (fun (a, b, c, d) => .v4 a b c d) ∨
    ip = .v6 0xfd00 0xec2 0 0 0 0 0 0x254 ∨ ip ∈ embedded := by
  cases ip
  case v4 a b c d =>
    rw [classify, classifyV4_eq_hardDeny]
    simp [metadataV4, embedded, metadataSegments]
  case v6 a b c d e f g h =>
    rw [classify, classifyV6_eq_hardDeny, mem_embedded]
    simp [metadataV4]

end Ip

-- The network of a rule, which is the address itself where the target is no network.
def RuleLib.targetContains (lib : RuleLib) (cidrOrHost : String) (ip : Ip) : Prop :=
  match lib.parseIpNet (Text.trim cidrOrHost), lib.parseIp (Text.trim cidrOrHost) with
  | some net, _          => net.contains ip
  | none,     some target => ip = target
  | none,     none        => False

-- What is accepted as a target of a rule opens nothing which must never be opened.
def Sound (lib : RuleLib) (cidrOrHost : String) : Prop :=
  ∀ role (rule : NetworkRule), rule.cidrOrHost = cidrOrHost → validateNetworkRule lib role rule = .ok () →
    ∀ ip, lib.targetContains cidrOrHost ip → ip.classify ≠ .hardDeny

-- A metadata service stands in the network as an embedded address only, and neither at its start nor
-- at the address by which it is written.
structure IpNet.Hides (net : IpNet) : Prop where
  embedded : ∃ ip ∈ Ip.embedded, net.contains ip
  literals : ¬cidrCoversHardDeny net
  addr     : net.addr.classify ≠ .hardDeny
  network  : net.network.classify ≠ .hardDeny

-- The target is well-formed and a network of this kind.
structure RuleLib.Hides (lib : RuleLib) (cidrOrHost : String) : Prop where
  wildcard : '*' ∉ cidrOrHost.toList ∧ '?' ∉ cidrOrHost.toList
  nonempty : Text.trim cidrOrHost ≠ ""
  net      : ∃ net, lib.parseIpNet (Text.trim cidrOrHost) = some net ∧ net.Hides

-- What a rule which is accepted fulfils, as far as its target goes.
structure Accepted (lib : RuleLib) (cidrOrHost : String) : Prop where
  wildcard : '*' ∉ cidrOrHost.toList ∧ '?' ∉ cidrOrHost.toList
  nonempty : Text.trim cidrOrHost ≠ ""
  net      : ∀ net, lib.parseIpNet (Text.trim cidrOrHost) = some net → net.addr.classify ≠ .hardDeny ∧
    net.network.classify ≠ .hardDeny ∧ ¬cidrCoversHardDeny net
  ip       : lib.parseIpNet (Text.trim cidrOrHost) = none →
    ∀ ip, lib.parseIp (Text.trim cidrOrHost) = some ip → ip.classify ≠ .hardDeny

theorem accepted_of_validate {lib : RuleLib} {role : Resources.Role} {rule : NetworkRule}
    (h : validateNetworkRule lib role rule = .ok ()) : Accepted lib rule.cidrOrHost := by
  unfold validateNetworkRule at h
  dsimp only at h
  iterate 3
    split at h
    case isTrue => cases h
  split at h
  case isTrue => cases h
  case isFalse hw =>
  split at h
  case isTrue => cases h
  case isFalse he =>
  have hw := not_or.mp hw
  refine ⟨hw, he, fun net hn => ?_, fun hn ip hi => ?_⟩
  case refine_1 =>
    simp only [hn] at h
    split_ifs at h with hd
    exact ⟨fun ha => hd (.inl ha), fun ha => hd (.inr (.inl ha)), fun ha => hd (.inr (.inr ha))⟩
  case refine_2 =>
    simp only [hn, hi] at h
    split_ifs at h with hd
    exact hd

theorem mem_literals {ip : Ip} (h : ip.classify = .hardDeny) (he : ip ∉ Ip.embedded) {net : IpNet}
    (hc : net.contains ip) : cidrCoversHardDeny net := by
  have hm : ip ∈ ([.v4 169 254 169 254, .v4 169 254 169 253, .v4 168 63 129 16,
      .v4 100 100 100 200, .v6 0xfd00 0xec2 0 0 0 0 0 0x254] : List Ip) := by
    obtain h | rfl | h := Ip.classify_eq_hardDeny.mp h
    case inl =>
      simp only [Ip.metadataV4, List.map_cons, List.map_nil, List.mem_cons, List.not_mem_nil,
        or_false] at h ⊢
      tauto
    case inr.inl => simp
    case inr.inr => exact absurd h he
  exact List.any_eq_true.mpr ⟨ip, hm, hc⟩

theorem validateNetworkRule_sound_iff (lib : RuleLib) (cidrOrHost : String) :
    Sound lib cidrOrHost ↔ ¬lib.Hides cidrOrHost := by
  constructor
  case mp =>
    intro hs ⟨hw, he, net, hn, hh⟩
    have ⟨ip, hm, hc⟩ := hh.embedded
    let rule : NetworkRule :=
      { id := 0, sourceId := 0, cidrOrHost, ports := none, reason := "r", approvedBy := "a",
        expiresAt := none }
    have hv : validateNetworkRule lib .admin rule = .ok () := by
      have hr : Text.trim "r" ≠ "" := by decide
      have ha : Text.trim "a" ≠ "" := by decide
      simp [validateNetworkRule, rule, hr, ha, hw, he, hn, hh.addr, hh.network, hh.literals,
        Resources.Role.includes]
    have ht : lib.targetContains cidrOrHost ip := by simpa [RuleLib.targetContains, hn] using hc
    exact hs .admin rule rfl hv ip ht <| Ip.classify_eq_hardDeny.mpr <| .inr <| .inr hm
  case mpr =>
    rintro hn role rule rfl hv ip hc hd
    have ha := accepted_of_validate hv
    unfold RuleLib.targetContains at hc
    split at hc
    case h_1 net hp =>
      have ⟨h₁, h₂, h₃⟩ := ha.net net hp
      by_cases hm : ip ∈ Ip.embedded
      case pos => exact hn ⟨ha.wildcard, ha.nonempty, net, hp, ⟨ip, hm, hc⟩, h₃, h₁, h₂⟩
      case neg => exact h₃ <| mem_literals hd hm hc
    case h_2 target hp hi =>
      subst hc
      exact ha.ip hp _ hi hd
    case h_3 => exact hc

-- The libraries which read the network `::ffff:169.254.169.0/120` and nothing else.
def mappedLib : RuleLib where
  toNetLib      := { NetLib.ofTable [] [] with
    parseNet s := if s = "::ffff:a9fe:a900/120" then
      some (IpNet.contains ⟨.v6 0 0 0 0 0 0xffff 0xa9fe 0xa900, 120, by decide⟩) else none }
  parseIpNet s  := if s = "::ffff:a9fe:a900/120" then
    some ⟨.v6 0 0 0 0 0 0xffff 0xa9fe 0xa900, 120, by decide⟩ else none
  parseNet_eq s := by dsimp only; split_ifs <;> rfl

-- The rule opens the metadata service under its mapped address.
theorem not_validateNetworkRule_sound :
    ¬∀ (lib : RuleLib) (cidrOrHost : String), Sound lib cidrOrHost := by
  intro h
  let rule : NetworkRule :=
    { id := 0, sourceId := 0, cidrOrHost := "::ffff:a9fe:a900/120", ports := none, reason := "feed",
      approvedBy := "alice", expiresAt := none }
  have hv : validateNetworkRule mappedLib .operator rule = .ok () := by decide +kernel
  have hc : mappedLib.targetContains "::ffff:a9fe:a900/120" (.v6 0 0 0 0 0 0xffff 0xa9fe 0xa9fe) := by
    have ht : Text.trim "::ffff:a9fe:a900/120" = "::ffff:a9fe:a900/120" := by decide +kernel
    simp only [RuleLib.targetContains, ht, mappedLib, if_true]
    decide +kernel
  exact h _ _ _ rule rfl hv _ hc (by decide +kernel)
