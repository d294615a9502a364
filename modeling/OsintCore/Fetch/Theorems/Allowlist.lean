import OsintCore.Fetch.Guard
import OsintCore.Fetch.Theorems.Guard

open Resumption

namespace NetworkRule

-- The rule is meant for the address, be it as a network, as an address or under the name of the host.
def Covers (lib : NetLib) (rule : NetworkRule) (host : String) (ip : Ip) : Prop :=
  match lib.parseNet (Text.trim rule.cidrOrHost), lib.parseIp (Text.trim rule.cidrOrHost) with
  | some net, _          => net ip
  | none,     some target => target = ip
  | none,     none        =>
    host = Text.toAsciiLowercase (Text.trimEndMatches '.' (Text.trim rule.cidrOrHost))

-- An unexpired rule of the host or the address and of the port.
structure Allows (lib : NetLib) (rule : NetworkRule) (host : String) (ip : Ip) (port : Nat)
    (now : Timestamp) : Prop where
  unexpired : ∀ expiresAt ∈ rule.expiresAt, now < expiresAt
  port      : ∀ ports ∈ rule.ports, port ∈ ports
  target    : rule.Covers lib host ip

theorem isMatch_iff {lib : NetLib} {rule : NetworkRule} {host : String} {ip : Ip} {port : Nat}
    {now : Timestamp} : rule.isMatch lib host ip port now ↔ rule.Allows lib host ip port now := by
  have he : rule.isExpired now = false ↔ ∀ expiresAt ∈ rule.expiresAt, now < expiresAt := by
    cases h : rule.expiresAt <;> simp [isExpired, h]
  have hp : rule.ports.any (port ∉ ·) = false ↔ ∀ ports ∈ rule.ports, port ∈ ports := by
    cases h : rule.ports <;> simp
  unfold isMatch
  split_ifs with h₁ h₂
  case pos =>
    exact iff_of_false not_false fun h => by simp [he.mpr h.unexpired] at h₁
  case pos =>
    exact iff_of_false not_false fun h =>
      Bool.false_ne_true <| (hp.mpr h.port).symm.trans h₂
  case neg =>
    have he := he.mp <| Bool.not_eq_true _ |>.mp h₁
    have hp := hp.mp <| Bool.not_eq_true _ |>.mp h₂
    refine Iff.trans ?_ (⟨fun h => ⟨he, hp, h⟩, Allows.target⟩ : rule.Covers lib host ip ↔ _)
    unfold Covers
    dsimp only
    cases lib.parseNet (Text.trim rule.cidrOrHost)
    case some net => rfl
    case none     => cases lib.parseIp (Text.trim rule.cidrOrHost) <;> simp

end NetworkRule

namespace SsrfGuard

variable {g : SsrfGuard} {lib : NetLib} {env : Environment} {url : Url} {now : Timestamp} {log : Log}
  {host : String} {port : Nat}

def urlPort (url : Url) : Nat :=
  url.portOrKnownDefault.getD (if url.scheme = "https" then 443 else 80)

-- The addresses of a host. Only a name is asked for.
def addresses (lib : NetLib) (env : Environment) (log : Log) (host : String) :
    Except ConnectorError (List Ip) :=
  match lib.parseIp host with
  | some ip => .ok [ip]
  | none    => env.resolve log host

-- Whether the address may be connected to.
structure Admits (g : SsrfGuard) (lib : NetLib) (host : String) (port : Nat) (now : Timestamp)
    (ip : Ip) : Prop where
  notHard : ip.classify ≠ .hardDeny
  soft    : ip.classify = .softDeny →
    ∃ rule ∈ g.rules, rule.Allows lib (normalizeHost host) ip port now

-- What a URL has to fulfil, with the host and the addresses under which it does.
structure Passes (g : SsrfGuard) (lib : NetLib) (env : Environment) (log : Log) (url : Url)
    (now : Timestamp) (host : String) (ips : List Ip) : Prop where
  scheme    : url.scheme = "http" ∨ url.scheme = "https"
  urlHost   : url.host.map normalizeHost = some host
  lists     : g.policy.hostAllowed host = .ok ()
  name      : classifyHost lib host ≠ some .hardDeny
  addresses : addresses lib env log host = .ok ips
  nonempty  : ips ≠ []
  admits    : ∀ ip ∈ ips, g.Admits lib host (urlPort url) now ip

def softDenied (ips : List Ip) : List Ip :=
  ips.filter (·.classify = .softDeny)

theorem mem_softDenied {ips : List Ip} {ip : Ip} :
    ip ∈ softDenied ips ↔ ip ∈ ips ∧ ip.classify = .softDeny := by
  simp [softDenied]

-- The rule for the last address which needs one.
def lastRule (g : SsrfGuard) (lib : NetLib) (host : String) (port : Nat) (now : Timestamp)
    (ips : List Ip) : Option NetworkRule :=
  (softDenied ips).getLast? >>= fun ip => matchingRule lib g.rules host ip port now

theorem isSome_matchingRule {ip : Ip} (h : ip.classify ≠ .hardDeny) :
    (matchingRule lib g.rules host ip port now).isSome ↔
      ∃ rule ∈ g.rules, rule.Allows lib (normalizeHost host) ip port now := by
  simp [matchingRule, h, NetworkRule.isMatch_iff]

theorem admitIp_eq_ok {ip : Ip} {rule rule' : Option NetworkRule} :
    g.admitIp lib host port now rule ip = .ok rule' ↔ g.Admits lib host port now ip ∧
      rule' = if ip.classify = .softDeny then matchingRule lib g.rules host ip port now else rule := by
  unfold admitIp
  split
  case h_1 hc => exact ⟨nofun, fun h => absurd hc h.left.notHard⟩
  case h_2 hc =>
    have ha : g.Admits lib host port now ip := ⟨by simp [hc], by simp [hc]⟩
    simp [hc, ha, eq_comm]
  case h_3 hc =>
    have hn : ip.classify ≠ .hardDeny := by simp [hc]
    have ha : g.Admits lib host port now ip ↔
        (matchingRule lib g.rules host ip port now).isSome :=
      ⟨fun h => (isSome_matchingRule hn).mpr (h.soft hc),
        fun h => ⟨hn, fun _ => (isSome_matchingRule hn).mp h⟩⟩
    cases hm : matchingRule lib g.rules host ip port now <;> simp [hc, ha, hm, eq_comm]

-- The slot holds what the last address has put there.
theorem foldlM_admitIp {ips : List Ip} {rule : Option NetworkRule} :
    ips.foldlM (g.admitIp lib host port now) none = .ok rule ↔
      (∀ ip ∈ ips, g.Admits lib host port now ip) ∧ rule = g.lastRule lib host port now ips := by
  induction ips using List.reverseRecOn generalizing rule
  case nil => simp [lastRule, softDenied, pure, Except.pure, eq_comm]
  case append_singleton ips ip hi =>
    have hl : g.lastRule lib host port now (ips ++ [ip]) =
        if ip.classify = .softDeny then matchingRule lib g.rules host ip port now
        else g.lastRule lib host port now ips := by
      by_cases hs : ip.classify = .softDeny <;> simp [lastRule, softDenied, hs]
    simp only [List.foldlM_append, List.foldlM_cons, List.foldlM_nil, Except.bind_eq_ok,
      Except.pure_eq_ok, exists_eq_right, admitIp_eq_ok, hi, hl, List.forall_mem_append,
      List.forall_mem_singleton]
    constructor
    case mp =>
      rintro ⟨_, ⟨ha, rfl⟩, h, hr⟩
      exact ⟨⟨ha, h⟩, hr⟩
    case mpr =>
      rintro ⟨⟨ha, h⟩, hr⟩
      exact ⟨_, ⟨ha, rfl⟩, h, hr⟩

theorem resolveHost_run : (resolveHost lib env host).run log = (addresses lib env log host, log) := by
  unfold resolveHost addresses
  cases lib.parseIp host
  case some => rfl
  case none =>
    simp only [run_bind, run_read]
    cases env.resolve log host <;> rfl

theorem auditAllowlist_run {rule : Option NetworkRule} : (auditAllowlist env rule).run log =
    (if rule.isNone ∨ env.audit log then .ok () else .error .audit, log) := by
  cases rule
  case none   => rfl
  case some r =>
    simp only [auditAllowlist, run_bind, run_read]
    cases env.audit log <;> rfl

theorem Passes.unique {host' : String} {ips ips' : List Ip}
    (h : g.Passes lib env log url now host ips) (h' : g.Passes lib env log url now host' ips') :
    host = host' ∧ ips = ips' := by
  have hh := Option.some.inj <| h.urlHost.symm.trans h'.urlHost
  subst hh
  exact ⟨rfl, Except.ok.inj <| h.addresses.symm.trans h'.addresses⟩

variable (g lib env url now log) in
-- What the guard lets pass, and what it refuses.
theorem check_decides : (g.check lib env url now).Ensures log
    (fun d _ => g.Passes lib env log url now d.host d.ips ∧ d.port = urlPort url ∧
      d.allowlisted = g.lastRule lib d.host d.port now d.ips ∧
      (d.allowlisted.isNone ∨ env.audit log))
    fun _ _ => ∀ host ips, g.Passes lib env log url now host ips →
      ¬((g.lastRule lib host (urlPort url) now ips).isNone ∨ env.audit log) := by
  unfold check
  rw [ensures_ite]
  refine ⟨fun hs _ _ h => absurd h.scheme (by simpa using hs), fun hs => ?_⟩
  split
  case h_1 hu => exact fun _ _ h => by simpa [hu] using h.urlHost
  case h_2 urlHost hu =>
    have hd {host ips} (h : g.Passes lib env log url now host ips) : normalizeHost urlHost = host := by
      simpa [hu] using h.urlHost
    rw [ensures_bind, SsrfGuard.ensures_ofExcept]
    refine ⟨fun _ hl => ?_, fun _ hl _ _ h => by simp [hd h, h.lists] at hl⟩
    rw [ensures_ite]
    refine ⟨fun hc _ _ h => absurd (hd h ▸ hc) h.name, fun hc => ?_⟩
    rw [ensures_bind, Ensures, resolveHost_run]
    split
    case h_2 e _ ha =>
      intro _ _ h
      rw [hd h, h.addresses] at ha
      cases ha
    case h_1 ips log' hr =>
      obtain ⟨ha, hl'⟩ := Prod.mk.inj hr
      subst hl'
      have hi {host ips'} (h : g.Passes lib env log url now host ips') : ips = ips' := by
        rw [hd h] at ha
        exact Except.ok.inj <| ha.symm.trans h.addresses
      rw [ensures_dite]
      refine ⟨fun hn _ _ h => absurd (hi h ▸ hn) h.nonempty, fun hn => ?_⟩
      rw [ensures_bind, SsrfGuard.ensures_ofExcept]
      refine ⟨fun rule hr => ?_, fun e he host ips' h => ?_⟩
      case refine_1 =>
        obtain ⟨hr, hw⟩ := foldlM_admitIp.mp hr
        have hp : g.Passes lib env log url now (normalizeHost urlHost) ips :=
          ⟨by simpa [or_iff_not_imp_left] using hs, by simp [hu], hl, hc, ha, hn, hr⟩
        rw [ensures_bind, Ensures, auditAllowlist_run]
        by_cases ht : rule.isNone ∨ env.audit log
        case pos =>
          rw [if_pos ht]
          exact ⟨hp, rfl, hw, ht⟩
        case neg =>
          rw [if_neg ht]
          intro host ips' h
          obtain ⟨hh, hi⟩ := hp.unique h
          subst hh hi
          exact hw ▸ ht
      case refine_2 =>
        have hf := foldlM_admitIp.mpr ⟨h.admits, rfl⟩
        rw [← hd h, ← hi h] at hf
        cases he.symm.trans hf

theorem Passes.isNone_lastRule (h : g.Passes lib env log url now host ips) :
    (g.lastRule lib host (urlPort url) now ips).isNone ↔ softDenied ips = [] := by
  cases hl : (softDenied ips).getLast?
  case none => simpa [lastRule, hl] using List.getLast?_eq_none_iff.mp hl
  case some ip =>
    have ⟨hm, hs⟩ := mem_softDenied.mp <| List.mem_of_getLast? hl
    have ha := h.admits ip hm
    have hr := (isSome_matchingRule ha.notHard).mpr (ha.soft hs)
    have hn : softDenied ips ≠ [] := fun hn => by simp [hn] at hl
    simp [lastRule, hl, hn, Option.ne_none_iff_isSome.mpr hr]

theorem check_ok {d : SsrfDecision} (h : ((g.check lib env url now).run log).fst = .ok d) :
    g.Passes lib env log url now d.host d.ips ∧ d.port = urlPort url ∧
      d.allowlisted = g.lastRule lib d.host (urlPort url) now d.ips ∧
      (softDenied d.ips = [] ∨ env.audit log) := by
  have hc := check_decides g lib env url now log
  unfold Ensures at hc
  split at hc
  case h_2 hr => simp [hr] at h
  case h_1 hr =>
    obtain rfl := Except.ok.inj <| (congrArg Prod.fst hr).symm.trans h
    have ⟨hp, ht, hw, ha⟩ := hc
    rw [hw, ht, hp.isNone_lastRule] at ha
    exact ⟨hp, ht, ht ▸ hw, ha⟩

theorem exists_check_ok : (∃ d, ((g.check lib env url now).run log).fst = .ok d) ↔
    ∃ host ips, g.Passes lib env log url now host ips ∧ (softDenied ips = [] ∨ env.audit log) := by
  constructor
  case mp =>
    intro ⟨d, hd⟩
    have ⟨hp, _, _, ha⟩ := check_ok hd
    exact ⟨_, _, hp, ha⟩
  case mpr =>
    intro ⟨host, ips, hp, ha⟩
    have hc := check_decides g lib env url now log
    unfold Ensures at hc
    split at hc
    case h_1 hr => exact ⟨_, congrArg Prod.fst hr⟩
    case h_2 hr => exact absurd (ha.imp_left hp.isNone_lastRule.mpr) (hc host ips hp)

-- The entry has for the address a rule by which it may be connected to.
def Accounts (g : SsrfGuard) (lib : NetLib) (now : Timestamp) (e : AllowlistEntry) (ip : Ip) : Prop :=
  ∃ rule ∈ g.rules, rule.id = e.ruleId ∧ rule.Allows lib (normalizeHost e.host) ip e.port now

-- The guard lets pass what it should, and tells the audit log by which rules. An entry which the log
-- does not take counts as a refusal.
structure Guards (g : SsrfGuard) (lib : NetLib) (env : Environment) (log : Log) (url : Url)
    (now : Timestamp) : Prop where
  decides  : (∃ d, ((g.check lib env url now).run log).fst = .ok d) ↔ ∃ host ips,
    g.Passes lib env log url now host ips ∧ (softDenied ips = [] ∨ env.audit log)
  accounts : ∀ d, ((g.check lib env url now).run log).fst = .ok d → softDenied d.ips ≠ [] →
    ∃ e, g.allowlistEntry d = some e ∧ ∀ ip ∈ softDenied d.ips, g.Accounts lib now e ip

-- The rule which is found for the last address that needs one will do for all of them.
def OneRule (g : SsrfGuard) (lib : NetLib) (env : Environment) (log : Log) (url : Url)
    (now : Timestamp) : Prop :=
  ∀ host ips, g.Passes lib env log url now host ips → env.audit log →
    ∀ last ∈ g.lastRule lib host (urlPort url) now ips, ∀ ip ∈ softDenied ips,
      ∃ rule ∈ g.rules, rule.id = last.id ∧ rule.Allows lib (normalizeHost host) ip (urlPort url) now

theorem allowlistEntry_eq_some {d : SsrfDecision} {e : AllowlistEntry} :
    g.allowlistEntry d = some e ↔ ∃ rule, d.allowlisted = some rule ∧
      e = { actor := rule.approvedBy, resourceId := g.sourceId, sourceId := g.sourceId,
            ruleId := rule.id, cidrOrHost := rule.cidrOrHost, host := d.host, ips := d.ips,
            port := d.port } := by
  simp [allowlistEntry, eq_comm]

theorem check_guards_iff (g : SsrfGuard) (lib : NetLib) (env : Environment) (log : Log) (url : Url)
    (now : Timestamp) : g.Guards lib env log url now ↔ g.OneRule lib env log url now := by
  constructor
  case mp =>
    intro h host ips hp ha last hl ip hi
    have ⟨d, hd⟩ := h.decides.mpr ⟨host, ips, hp, .inr ha⟩
    have ⟨hp', ht, hw, _⟩ := check_ok hd
    obtain ⟨rfl, rfl⟩ := hp.unique hp'
    have ⟨e, he, hall⟩ := h.accounts d hd (List.ne_nil_of_mem hi)
    have ⟨rule, hr, he⟩ := allowlistEntry_eq_some.mp he
    rw [hw] at hr
    obtain rfl := Option.mem_unique hr hl
    have ⟨r, hm, hn, ho⟩ := hall ip hi
    subst he
    exact ⟨r, hm, hn, ht ▸ ho⟩
  case mpr =>
    intro h
    refine ⟨exists_check_ok, fun d hd hs => ?_⟩
    have ⟨hp, ht, hw, ha⟩ := check_ok hd
    have ha := ha.resolve_left hs
    have ⟨last, hl⟩ := Option.ne_none_iff_exists'.mp fun hn =>
      hs <| hp.isNone_lastRule.mp <| Option.isNone_iff_eq_none.mpr hn
    refine ⟨_, allowlistEntry_eq_some.mpr ⟨last, hw.trans hl, rfl⟩, fun ip hi => ?_⟩
    have ⟨rule, hm, hn, ho⟩ := h _ _ hp ha last hl ip hi
    exact ⟨rule, hm, hn, ht ▸ ho⟩

-- Two private addresses of one name, each with a rule of its own.
def twoRules : SsrfGuard where
  sourceId := 1
  policy   := {}
  rules    :=
    [{ id := 2, sourceId := 1, cidrOrHost := "10.0.0.1", ports := none, reason := "feed",
       approvedBy := "alice", expiresAt := none },
     { id := 3, sourceId := 1, cidrOrHost := "10.0.0.2", ports := none, reason := "mirror",
       approvedBy := "bob", expiresAt := none }]

def twoLib : NetLib :=
  .ofTable [] [("10.0.0.1", .v4 10 0 0 1), ("10.0.0.2", .v4 10 0 0 2)]

def twoAddresses : Environment where
  resolve _ _ := .ok [.v4 10 0 0 1, .v4 10 0 0 2]
  audit _     := true
  allows _ _  := true
  now _       := 0
  answer _ _  := .error .other

-- The entry names the second rule only, which the first address does not belong to.
theorem not_check_guards : ¬∀ (g : SsrfGuard) (lib : NetLib) (env : Environment) (log : Log)
    (url : Url) (now : Timestamp), g.Guards lib env log url now := by
  intro h
  have hr : (((twoRules.check twoLib twoAddresses ⟨"http", "feed.internal", none, "/"⟩ 0).run
      []).fst.toOption.map fun d => (d.ips, (twoRules.allowlistEntry d).map fun e =>
        (e.ruleId, e.host))) =
          some ([.v4 10 0 0 1, .v4 10 0 0 2], some (3, "feed.internal")) := by decide +kernel
  have ⟨d, hd, hr⟩ := Option.map_eq_some_iff.mp hr
  have ⟨hi, he⟩ := Prod.mk.inj hr
  have hd : ((twoRules.check twoLib twoAddresses ⟨"http", "feed.internal", none, "/"⟩ 0).run
      []).fst = .ok d := by
    revert hd
    cases ((twoRules.check twoLib twoAddresses ⟨"http", "feed.internal", none, "/"⟩ 0).run []).fst
    case error => exact nofun
    case ok    => exact fun hd => congrArg Except.ok <| Option.some.inj hd
  have h := h twoRules twoLib twoAddresses [] ⟨"http", "feed.internal", none, "/"⟩ 0
  have ⟨e, hs, hall⟩ := h.accounts d hd (by rw [hi]; decide)
  have ⟨rule, hm, hn, ho⟩ := hall (.v4 10 0 0 1) (by rw [hi]; decide)
  rw [hs] at he
  rw [(Prod.mk.inj <| Option.some.inj he).left] at hn
  have ht := ho.target
  obtain rfl | rfl : rule = _ ∨ rule = _ := by simpa [twoRules] using hm
  case inl => exact absurd hn (by decide)
  case inr =>
    have ht : Ip.v4 10 0 0 2 = .v4 10 0 0 1 := ht
    exact absurd ht (by decide)

end SsrfGuard
