import OsintCore.Fetch.Theorems.Host

open Resumption Text

namespace SourcePolicy

variable {policy : SourcePolicy} {fields : List (String × Json)} {values : List Json}
  {host rule : String}

-- A fetcher which works under the policy sends nothing to the host.
def Refuses (policy : SourcePolicy) (host : String) : Prop :=
  ∀ (f : GuardedFetcher) (log : Log) (method : Method) (url : String)
    (headers : List (String × String)) (body : Option Bytes), f.guard.policy = policy →
      ∃ new, (f.request method url headers body).exec log = log ++ new ∧
        ∀ e ∈ new, e.request.url.host ≠ some host

theorem refuses_of_hostAllowed
    (h : policy.hostAllowed (normalizeHost host) ≠ .ok ()) : policy.Refuses host := by
  intro f log method url headers body hf
  have ⟨new, hl, hn⟩ := f.request_exec log method url headers body
  refine ⟨new, hl, fun e he hu => h ?_⟩
  have ⟨_, d, hp, _⟩ := (hn.guarded e he).passed
  have hd := hp.host
  rw [hu, Option.map_some, Option.some.injEq] at hd
  rw [hd, ← hf]
  exact hp.allowed

theorem hostAllowed_denied (hh : Hostname host) (hr : rule ∈ policy.domainDenylist)
    (h : domainMatches (normalizeHost host) rule) :
    policy.hostAllowed (normalizeHost host) ≠ .ok () := by
  have ha : policy.domainDenylist.any (domainMatches (normalizeHost host)) :=
    List.any_eq_true.mpr ⟨rule, hr, h⟩
  simp [hostAllowed, hh.normalizeHost_idem, ha]

theorem hostAllowed_not_listed (hh : Hostname host) (hn : policy.domainAllowlist ≠ [])
    (h : ∀ rule ∈ policy.domainAllowlist, ¬domainMatches (normalizeHost host) rule) :
    policy.hostAllowed (normalizeHost host) ≠ .ok () := by
  have ha : ¬policy.domainAllowlist.any (domainMatches (normalizeHost host)) := by
    simpa using h
  unfold hostAllowed
  simp only [hh.normalizeHost_idem]
  split_ifs <;> simp_all

-- The lists of the policy are the ones of the object it has been read from.
theorem decode_some {policy : SourcePolicy} (h : decode (.object fields) = some policy) :
    Json.decodeField fields "domain_allowlist" (Json.decodeList Json.asStr) =
      some policy.domainAllowlist ∧
    Json.decodeField fields "domain_denylist" (Json.decodeList Json.asStr) =
      some policy.domainDenylist := by
  simp only [decode, Json.asStruct, Option.bind_eq_bind, Option.bind_some,
    Option.bind_eq_some_iff] at h
  obtain ⟨_, ha, _, hd, _, _, _, _, _, _, _, _, _, _, h⟩ := h
  cases h
  exact ⟨ha, hd⟩

theorem mem_of_mapM_asStr {names : List String} (h : values.mapM Json.asStr = some names)
    {name : String} : name ∈ names ↔ .string name ∈ values := by
  induction values generalizing names
  case nil => simp_all
  case cons value values hi =>
    simp only [List.mapM_cons, Option.bind_eq_bind, Option.bind_eq_some_iff] at h
    obtain ⟨_, hv, _, hn, h⟩ := h
    cases h
    cases value <;> simp [Json.asStr] at hv
    subst hv
    simp [hi hn]

theorem mem_of_decodeList {names : List String} {field : String} (name : String)
    (hl : fields.lookup field = some (.array values))
    (h : Json.decodeField fields field (Json.decodeList Json.asStr) = some names) :
    name ∈ names ↔ .string name ∈ values := by
  simp only [Json.decodeField, hl, Json.decodeList, Json.asArray, Option.bind_eq_bind,
    Option.bind_some] at h
  exact mem_of_mapM_asStr h

-- The default policy lets every public address pass.
theorem default_check {lib : NetLib} {env : Environment} {ip : Ip} {sourceId : SourceId}
    {now : Timestamp} {log : Log} (hp : PlainHost host) (hh : host ∉ hardDenyHosts)
    (hi : lib.parseIp host = none) (hr : env.resolve log host = .ok [ip])
    (hc : ip.classify = .public) :
    ∃ d log', (SsrfGuard.check ⟨sourceId, {}, []⟩ lib env ⟨"http", host, none, "/"⟩ now).run log =
      (.ok d, log') := by
  have hn := normalizeHost_eq_self.mpr hp
  have ha : hostAllowed {} host = .ok () := by simp [hostAllowed]
  have hd : classifyHost lib host ≠ some .hardDeny := by simp [classifyHost, hn, hh, hi]
  refine (Ensures.exists_ok (Q := fun _ _ => True) ?_).imp fun _ ⟨log', hr, _⟩ => ⟨log', hr⟩
  unfold SsrfGuard.check
  rw [ensures_ite]
  refine ⟨fun h => absurd rfl h.left, fun _ => ?_⟩
  dsimp only
  rw [hn, ensures_bind, SsrfGuard.ensures_ofExcept, ensures_ite, ensures_bind]
  refine ⟨fun _ _ => ⟨fun h => absurd h hd, fun _ => ?_⟩, fun _ h => by simp [ha] at h⟩
  rw [SsrfGuard.resolveHost, hi]
  dsimp only
  rw [ensures_bind, ensures_read, hr, SsrfGuard.ensures_ofExcept]
  refine ⟨fun ips h => ?_, nofun⟩
  cases h
  rw [ensures_dite]
  refine ⟨fun h => absurd h (by simp), fun _ => ?_⟩
  simp [SsrfGuard.admitIp, hc, SsrfGuard.ofExcept, SsrfGuard.auditAllowlist]

-- A call whose URL passes the guard reaches the host, also if nobody answers there.
theorem request_reaches {f : GuardedFetcher} (method : Method) {url : String} {start : Url}
    (headers : List (String × String)) (body : Option Bytes) (log : Log)
    (hu : f.lib.parseUrl url = some start)
    (hc : ∀ now, ∃ d log', (f.guard.check f.lib f.env start now).run log = (.ok d, log'))
    (ha : ∀ log domain, f.env.allows log domain)
    (hs : ∀ log request, f.env.answer log request = .error .timeout) :
    ∃ e ∈ (f.request method url headers body).exec log, e.request.url = start := by
  apply Ensures.exec (P := fun (log : Log) => ∃ e ∈ log, e.request.url = start)
  unfold GuardedFetcher.request GuardedFetcher.follow
  simp only [hu]
  rw [ensures_bind, ensures_read, ensures_bind]
  obtain ⟨d, log', hd⟩ := hc (f.env.now log)
  refine Ensures.of_run hd ?_
  rw [ensures_bind, GuardedFetcher.acquire, ensures_bind, ensures_read, if_pos (ha _ _)]
  rw [ensures_pure, ensures_bind]
  refine GuardedFetcher.send_ensures.mono (fun _ _ h => ?_) fun _ _ h => ?_
  case refine_1 => simp [hs] at h
  case refine_2 =>
    obtain ⟨_, _, h⟩ := h
    exact ⟨_, h ▸ List.mem_append_right _ (List.mem_singleton_self _), rfl⟩

-- A fetcher under the default policy which knows one URL.
def undefended (host : String) : GuardedFetcher where
  guard := ⟨0, {}, []⟩
  lib   := .ofTable [("", ⟨"http", host, none, "/"⟩)] []
  env   := .ofAnswers fun _ _ => .error .timeout

-- The default policy refuses no host which is not refused to everybody.
theorem not_refuses_default (hp : PlainHost host) (hh : host ∉ hardDenyHosts) :
    ¬Refuses {} host := by
  intro h
  have ⟨new, hl, hn⟩ := h (undefended host) [] .get "" [] none rfl
  have hu : (undefended host).lib.parseUrl "" = some ⟨"http", host, none, "/"⟩ := by
    simp [undefended, NetLib.ofTable, List.lookup]
  have ⟨e, he, hs⟩ := request_reaches .get [] none [] hu
    (fun _ => default_check hp hh rfl rfl rfl) (fun _ _ => rfl) fun _ _ => rfl
  exact hn e (by simpa [hl] using he) (by rw [hs])

theorem policyFromSource_of_isSome (h : (decode (.object fields)).isSome) :
    ∃ policy, decode (.object fields) = some policy ∧ policyFromSource (.object fields) = policy := by
  have ⟨policy, hp⟩ := Option.isSome_iff_exists.mp h
  exact ⟨policy, hp, by simp [policyFromSource, hp]⟩

theorem policyFromSource_of_not_isSome (h : ¬(decode (.object fields)).isSome) :
    policyFromSource (.object fields) = {} := by
  simp_all [policyFromSource]

theorem domainMatches_iff : domainMatches host rule ↔ normalizeHost rule ≠ "" ∧
    (host = normalizeHost rule ∨ '.' :: (normalizeHost rule).toList <:+ host.toList) := by
  simp [domainMatches, endsWith]

-- A host under a rule which is in no list of hosts that everybody is refused.
theorem exists_covered (hh : Hostname host) (hm : domainMatches (normalizeHost host) rule) :
    ∃ host', Hostname host' ∧ PlainHost host' ∧ host' ∉ hardDenyHosts ∧
      domainMatches (normalizeHost host') rule := by
  have ⟨hr, hm⟩ := domainMatches_iff.mp hm
  have hn : (normalizeHost host).toList ≠ [] := by
    obtain hm | hm := hm
    · simpa [hm] using hr
    · exact fun he => by simp [he] at hm
  have hl : ("x." ++ normalizeHost host).toList = 'x' :: '.' :: (normalizeHost host).toList := by simp
  have hp := hh.plain
  have hp' : PlainHost ("x." ++ normalizeHost host) := by
    refine ⟨?_, ?_, ?_⟩ <;> rw [hl]
    case refine_1 => simp +decide
    case refine_2 =>
      rw [List.getLast?_cons_cons, List.getLast?_cons_of_ne_nil hn]
      exact hp.right.left
    case refine_3 =>
      intro c hc
      simp only [List.mem_cons] at hc
      obtain rfl | rfl | hc := hc
      · decide
      · decide
      · exact hp.right.right c hc
  refine ⟨_, ?_, hp', ?_, ?_⟩
  case refine_1 =>
    intro c hc
    rw [hl, List.mem_cons, List.mem_cons] at hc
    obtain rfl | rfl | hc := hc
    · decide
    · decide
    · exact hh.of_normalizeHost c hc
  case refine_2 =>
    intro hd
    simp only [hardDenyHosts, List.mem_cons, ← String.toList_inj, hl] at hd
    simp at hd
  case refine_3 =>
    rw [normalizeHost_eq_self.mpr hp', domainMatches_iff, hl]
    refine ⟨hr, .inr ?_⟩
    obtain hm | hm := hm
    · rw [hm]
      exact List.suffix_cons _ _
    · exact hm.trans <| (List.suffix_cons _ _).trans (List.suffix_cons _ _)

-- There is always a host which no rule of a list covers.
theorem exists_uncovered (rules : List String) :
    ∃ host', Hostname host' ∧ PlainHost host' ∧ host' ∉ hardDenyHosts ∧
      ∀ rule ∈ rules, ¬domainMatches (normalizeHost host') rule := by
  let n := (rules.map fun rule => (normalizeHost rule).length).sum + 1
  have hl : (String.ofList (List.replicate n 'a')).toList = List.replicate n 'a' :=
    String.toList_ofList
  have ha {c} (hc : c ∈ List.replicate n 'a') : c = 'a' := List.eq_of_mem_replicate hc
  have hp : PlainHost (.ofList (List.replicate n 'a')) := by
    refine ⟨?_, ?_, ?_⟩ <;> rw [hl] <;> intro c hc
    case refine_1 => cases ha (List.mem_of_mem_head? hc); decide
    case refine_2 => cases ha (List.mem_of_mem_getLast? hc); decide
    case refine_3 => cases ha hc; decide
  refine ⟨_, fun c hc => ?_, hp, ?_, fun rule hr hm => ?_⟩
  case refine_1 => cases ha (hl ▸ hc); decide
  case refine_2 =>
    intro hd
    simp only [hardDenyHosts, List.mem_cons, ← String.toList_inj, hl, n] at hd
    simp [List.replicate_succ] at hd
  case refine_3 =>
    rw [normalizeHost_eq_self.mpr hp, domainMatches_iff, hl] at hm
    obtain ⟨_, hm | hm⟩ := hm
    · have hle := List.single_le_sum (l := rules.map fun rule => (normalizeHost rule).length)
        (by simp) _ (List.mem_map_of_mem hr)
      have hlen := congrArg String.length hm
      simp at hlen
      omega
    · cases ha (hm.subset (List.mem_cons_self ..))

theorem refuses_denied (hp : (decode (.object fields)).isSome)
    (hl : fields.lookup "domain_denylist" = some (.array values)) (hr : .string rule ∈ values)
    (hh : Hostname host) (hm : domainMatches (normalizeHost host) rule) :
    (policyFromSource (.object fields)).Refuses host := by
  have ⟨policy, hd, he⟩ := policyFromSource_of_isSome hp
  have hr := (mem_of_decodeList rule hl (decode_some hd).right).mpr hr
  exact he ▸ refuses_of_hostAllowed (hostAllowed_denied hh hr hm)

theorem refuses_not_listed (hp : (decode (.object fields)).isSome)
    (hl : fields.lookup "domain_allowlist" = some (.array values)) (hn : values ≠ [])
    (hh : Hostname host)
    (hm : ∀ rule, .string rule ∈ values → ¬domainMatches (normalizeHost host) rule) :
    (policyFromSource (.object fields)).Refuses host := by
  have ⟨policy, hd, he⟩ := policyFromSource_of_isSome hp
  have ha := (decode_some hd).left
  have hr {rule} := mem_of_decodeList rule hl ha
  have hn' : policy.domainAllowlist ≠ [] := by
    intro hs
    simp only [Json.decodeField, hl, Json.decodeList, Json.asArray, Option.bind_eq_bind,
      Option.bind_some, hs] at ha
    cases values
    case nil => exact hn rfl
    case cons => simp [List.mapM_cons, Option.bind_eq_some_iff] at ha
  exact he ▸ refuses_of_hostAllowed (hostAllowed_not_listed hh hn' fun rule h => hm rule (hr.mp h))

-- The lists of a source count if the object of its policy can be read as a whole. If not, then the
-- default policy takes its place.
theorem policyFromSource_refuses (value : Json) {fields : List (String × Json)}
    (_ : validateObject value = some (.object fields)) :
    (∀ values rule, fields.lookup "domain_denylist" = some (.array values) →
      .string rule ∈ values →
      ((∀ host, Hostname host → domainMatches (normalizeHost host) rule →
          (policyFromSource (.object fields)).Refuses host) ↔
        (decode (.object fields)).isSome ∨
          ∀ host, Hostname host → ¬domainMatches (normalizeHost host) rule)) ∧
    ∀ values, fields.lookup "domain_allowlist" = some (.array values) → values ≠ [] →
      ((∀ host, Hostname host →
          (∀ rule, .string rule ∈ values → ¬domainMatches (normalizeHost host) rule) →
          (policyFromSource (.object fields)).Refuses host) ↔
        (decode (.object fields)).isSome) := by
  constructor
  case left =>
    intro values rule hl hr
    constructor
    case mp =>
      intro h
      by_contra hn
      rw [not_or, not_forall] at hn
      have ⟨hd, host, hc⟩ := hn
      have ⟨hh, hm⟩ := Classical.not_imp.mp hc
      have ⟨host', hh', hp, hn, hm'⟩ := exists_covered hh (not_not.mp hm)
      have h := h host' hh' hm'
      rw [policyFromSource_of_not_isSome hd] at h
      exact not_refuses_default hp hn h
    case mpr =>
      intro h host hh hm
      obtain h | h := h
      · exact refuses_denied h hl hr hh hm
      · exact absurd hm (h host hh)
  case right =>
    intro values hl hn
    constructor
    case mp =>
      intro h
      by_contra hd
      have ⟨host, hh, hp, hn, hm⟩ := exists_uncovered (values.filterMap Json.asStr)
      have h := h host hh fun rule hr => hm rule <| List.mem_filterMap.mpr ⟨_, hr, rfl⟩
      rw [policyFromSource_of_not_isSome hd] at h
      exact not_refuses_default hp hn h
    case mpr => exact fun h host hh hm => refuses_not_listed h hl hn hh hm

def completePolicy : List (String × Json) :=
  [("domain_allowlist", .array []), ("domain_denylist", .array [.string "evil.com"]),
    ("max_redirects", .number 5), ("max_response_bytes", .number 1000),
    ("connect_timeout", .object [("secs", .number 5), ("nanos", .number 0)]),
    ("request_timeout", .object [("secs", .number 30), ("nanos", .number 0)]),
    ("rate_limit", .object [("per_second", .float 1), ("burst", .float 4)])]

theorem policyFromSource_refuses_completePolicy :
    (policyFromSource (.object completePolicy)).Refuses "www.evil.com" :=
  (policyFromSource_refuses (.object completePolicy) rfl).left
    [.string "evil.com"] "evil.com" (by simp [completePolicy, List.lookup])
    (List.mem_singleton_self _) |>.mpr
    (.inl <| by decide +kernel) "www.evil.com" (by decide +kernel) (by decide +kernel)

-- A policy which leaves out a field has no list at all.
theorem not_policyFromSource_refuses : ¬∀ (value : Json) (fields : List (String × Json)),
    validateObject value = some (.object fields) → ∀ values rule,
      fields.lookup "domain_denylist" = some (.array values) → .string rule ∈ values →
      ∀ host, Hostname host → domainMatches (normalizeHost host) rule →
        (policyFromSource (.object fields)).Refuses host := by
  intro h
  have h := h (.object [("domain_denylist", .array [.string "evil.com"])]) _ rfl
    [.string "evil.com"] "evil.com" (by simp [List.lookup]) (List.mem_singleton_self _) "evil.com"
    (by decide +kernel) (by decide +kernel)
  exact not_refuses_default (by decide +kernel) (by decide +kernel) h

end SourcePolicy
