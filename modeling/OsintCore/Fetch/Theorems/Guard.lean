import OsintCore.Control.Except
import OsintCore.Control.Fold
import OsintCore.Fetch.Fetcher

open Resumption

namespace SsrfGuard

variable {g : SsrfGuard} {lib : NetLib} {env : Environment} {url : Url} {now : Timestamp} {log : Log}

-- What is known of a URL which the guard lets pass.
structure Passed (g : SsrfGuard) (lib : NetLib) (url : Url) (now : Timestamp) (d : SsrfDecision) :
    Prop where
  host    : url.host.map normalizeHost = some d.host
  allowed : g.policy.hostAllowed d.host = .ok ()
  ips     : ∀ ip ∈ d.ips, ip.classify ≠ .hardDeny ∧
    (ip.classify = .softDeny → (matchingRule lib g.rules d.host ip d.port now).isSome)

theorem ensures_ofExcept {α : Type} {x : Except ConnectorError α} {Q : α → Log → Prop}
    {E : ConnectorError → Log → Prop} : (ofExcept x).Ensures log Q E ↔
      (∀ a, x = .ok a → Q a log) ∧ ∀ e, x = .error e → E e log := by
  cases x <;> simp [ofExcept]

theorem admitIp_ok {host : String} {port : Nat} {ip : Ip} {rule rule' : Option NetworkRule}
    (h : g.admitIp lib host port now rule ip = .ok rule') : ip.classify ≠ .hardDeny ∧
      (ip.classify = .softDeny → (matchingRule lib g.rules host ip port now).isSome) := by
  unfold admitIp at h
  split at h
  case h_1 => cases h
  case h_2 hc => simp [hc]
  case h_3 hc =>
    split at h
    case h_1 hm => simp [hc, hm]
    case h_2    => cases h

theorem admitIps_ok {host : String} {port : Nat} {ips : List Ip} {rule rule' : Option NetworkRule}
    (h : ips.foldlM (g.admitIp lib host port now) rule = .ok rule') : ∀ ip ∈ ips,
      ip.classify ≠ .hardDeny ∧
        (ip.classify = .softDeny → (matchingRule lib g.rules host ip port now).isSome) := by
  induction ips generalizing rule
  case nil => simp
  case cons ip ips hi =>
    rw [List.foldlM_cons, Except.bind_eq_ok] at h
    have ⟨_, hip, h⟩ := h
    exact List.forall_mem_cons.mpr ⟨admitIp_ok hip, hi h⟩

theorem resolveHost_ensures {host : String} : (resolveHost lib env host).Ensures log
    (fun _ log' => log' = log) fun _ log' => log' = log := by
  unfold resolveHost
  split
  case h_1 => exact rfl
  case h_2 =>
    rw [ensures_bind, ensures_read, ensures_ofExcept]
    exact ⟨fun _ _ => rfl, fun _ _ => rfl⟩

theorem auditAllowlist_ensures {rule : Option NetworkRule} : (auditAllowlist env rule).Ensures log
    (fun _ log' => log' = log) fun _ log' => log' = log := by
  unfold auditAllowlist
  split
  case h_1 => exact rfl
  case h_2 =>
    rw [ensures_bind, ensures_read]
    split_ifs
    case pos => exact rfl
    case neg => exact rfl

-- The guard sends nothing itself.
theorem check_ensures : (g.check lib env url now).Ensures log
    (fun d log' => log' = log ∧ Passed g lib url now d) fun _ log' => log' = log := by
  unfold check
  rw [ensures_ite]
  refine ⟨fun _ => rfl, fun _ => ?_⟩
  split
  case h_1 => exact rfl
  case h_2 host hh =>
    rw [ensures_bind, ensures_ofExcept]
    refine ⟨fun _ ha => ?_, fun _ _ => rfl⟩
    rw [ensures_ite]
    refine ⟨fun _ => rfl, fun _ => ?_⟩
    rw [ensures_bind]
    refine resolveHost_ensures.mono (fun ips log' hl => ?_) fun _ _ h => h
    rw [ensures_dite]
    refine ⟨fun _ => hl, fun _ => ?_⟩
    rw [ensures_bind, ensures_ofExcept]
    refine ⟨fun rule hr => ?_, fun _ _ => hl⟩
    rw [ensures_bind]
    refine auditAllowlist_ensures.mono (fun _ _ hl' => ?_) fun _ _ h => h.trans hl
    exact ⟨hl'.trans hl, by simp [hh], ha, admitIps_ok hr⟩

end SsrfGuard

-- Every name has a public address, and nothing outside fails.
def Environment.ofAnswers (answer : Log → Request → Except SendError Response) : Environment where
  resolve _ _ := .ok [.v4 93 184 215 14]
  audit _     := true
  allows _ _  := true
  now _       := 0
  answer      := answer

namespace GuardedFetcher

variable {f : GuardedFetcher} {log : Log} {headers : List (String × String)}

-- A request as the fetcher sends it after the guard has let its URL pass.
structure Guarded (f : GuardedFetcher) (headers : List (String × String)) (r : Request) : Prop where
  headers : r.headers = headers
  passed  : ∃ now d, SsrfGuard.Passed f.guard f.lib r.url now d ∧ r.pinnedHost = d.host ∧
    r.pinnedIp = SsrfGuard.pinnedIp d ∧ r.pinnedPort = d.port

-- Where a response takes the client.
def Redirects (f : GuardedFetcher) (e : Exchange) (next : Url) : Prop :=
  ∃ response location, e.answer = .ok response ∧ response.isRedirection ∧
    response.location = some location ∧ f.lib.join e.request.url location = some next

-- The exchanges of one call: each one but the first goes where the one before has redirected it to.
structure Hops (f : GuardedFetcher) (headers : List (String × String)) (url : Option Url) (new : Log) :
    Prop where
  start    : ∀ e ∈ new.head?, url = some e.request.url
  chain    : new.IsChain fun e e' => f.Redirects e e'.request.url
  guarded  : ∀ e ∈ new, f.Guarded headers e.request
  answered : ∀ e ∈ new, ∃ log, e.answer = f.env.answer log e.request

-- The response which a call hands out is the one of its last exchange.
structure Returned (f : GuardedFetcher) (e : Exchange) (r : FetchedResponse) : Prop where
  url    : r.url = e.request.url
  answer : ∃ response, e.answer = .ok response ∧ r.status = response.status ∧
    r.headers = collectHeaders response.headers ∧
    (response.status = 304 ∧ r.body = [] ∨ response.status ≠ 304 ∧ response.isSuccess ∧
      readBody f.guard.policy.maxResponseBytes response = .ok r.body)

theorem Hops.nil {url : Option Url} : f.Hops headers url [] :=
  ⟨by simp, .nil, by simp, by simp⟩

theorem Hops.singleton {r : Request} {answer : Except SendError Response}
    (hg : f.Guarded headers r) (ha : f.env.answer log r = answer) :
    f.Hops headers r.url [⟨r, answer⟩] :=
  ⟨by simp, .singleton _, by simpa using hg, by simpa using ⟨log, ha.symm⟩⟩

theorem Hops.cons {next : Url} {e : Exchange} {l : Log} (hg : f.Guarded headers e.request)
    (ha : ∃ log, e.answer = f.env.answer log e.request) (hr : f.Redirects e next)
    (hn : f.Hops headers next l) : f.Hops headers e.request.url (e :: l) where
  start    := by simp
  guarded  := List.forall_mem_cons.mpr ⟨hg, hn.guarded⟩
  answered := List.forall_mem_cons.mpr ⟨ha, hn.answered⟩
  chain    := by
    cases l
    case nil => exact .singleton _
    case cons e' l =>
      have hs := hn.start e' rfl
      exact .cons_cons (Option.some.inj hs ▸ hr) hn.chain

theorem acquire_ensures {domain : String} :
    (f.acquire domain).Ensures log (fun _ log' => log' = log) fun _ log' => log' = log := by
  unfold acquire
  rw [ensures_bind, ensures_read, ensures_ite]
  exact ⟨fun _ => rfl, fun _ => rfl⟩

theorem send_ensures {request : Request} : (f.send request).Ensures log
    (fun response log' => f.env.answer log request = .ok response ∧
      log' = log ++ [⟨request, .ok response⟩])
    fun _ log' => ∃ error, f.env.answer log request = .error error ∧
      log' = log ++ [⟨request, .error error⟩] := by
  simp only [send, Ensures, run_bind, Resumption.run]
  cases h : f.env.answer log request
  case ok => simp [Pure.pure, Resumption.run]
  case error e => cases e <;> simp [Resumption.run]

-- What `follow` does with a response which is no redirection.
theorem received_ensures {new : Log} {e : Exchange} {response : Response}
    {url : Option Url} (hn : f.Hops headers url new) (he : new.getLast? = some e) (ha : e.answer = .ok response)
    (h₁ : response.status ≠ 304) (h₂ : response.isSuccess) :
    Ensures (do
      let body ← SsrfGuard.ofExcept <| readBody f.guard.policy.maxResponseBytes response
      return { url := e.request.url, status := response.status,
               headers := collectHeaders response.headers, body } : Fetching FetchedResponse)
      (log ++ new)
      (fun r log' => ∃ new e, log' = log ++ new ∧ f.Hops headers url new ∧
        new.getLast? = some e ∧ f.Returned e r)
      fun _ log' => ∃ new, log' = log ++ new ∧ f.Hops headers url new := by
  rw [ensures_bind, SsrfGuard.ensures_ofExcept]
  refine ⟨fun body hb => ?_, fun _ _ => ⟨new, rfl, hn⟩⟩
  exact ⟨new, e, rfl, hn, he, rfl, response, ha, rfl, rfl, .inr ⟨h₁, h₂, hb⟩⟩

theorem follow_ensures {hops : Nat} {method : Method} {url : Url} {body : Option Bytes} :
    (f.follow headers hops method url body).Ensures log
      (fun r log' => ∃ new e, log' = log ++ new ∧ f.Hops headers url new ∧
        new.getLast? = some e ∧ f.Returned e r)
      fun _ log' => ∃ new, log' = log ++ new ∧ f.Hops headers url new := by
  induction hops generalizing method url body log
  all_goals
    unfold follow
    rw [ensures_bind, ensures_read, ensures_bind]
    refine SsrfGuard.check_ensures.mono ?_ fun _ _ h => ⟨[], by simp [h], .nil⟩
    rintro d _ ⟨rfl, hp⟩
    rw [ensures_bind]
    refine acquire_ensures.mono ?_ fun _ _ h => ⟨[], by simp [h], .nil⟩
    rintro ⟨⟩ log rfl
    rw [ensures_bind]
    have hg : f.Guarded headers ⟨method, url, headers, body, d.host, SsrfGuard.pinnedIp d, d.port⟩ :=
      ⟨rfl, _, d, hp, rfl, rfl, rfl⟩
    refine send_ensures.mono ?_ fun _ _ ⟨_, ha, h⟩ => ⟨_, h, .singleton hg ha⟩
    rintro response _ ⟨ha, rfl⟩
    have hs := Hops.singleton hg ha
    rw [ensures_ite]
    refine ⟨fun h₁ => ⟨_, _, rfl, hs, rfl, rfl, response, rfl, rfl, rfl, .inl ⟨h₁, rfl⟩⟩,
      fun h₁ => ?_⟩
    rw [ensures_ite, ensures_ite]
    refine ⟨fun h₂ => ?_, fun _ => ⟨fun _ => ⟨_, rfl, hs⟩, fun h₃ =>
      received_ensures hs rfl rfl h₁ (by simpa using h₃)⟩⟩
  case zero => exact ⟨_, rfl, hs⟩
  case succ hops hi =>
    dsimp only
    split
    case h_1 => exact ⟨_, rfl, hs⟩
    case h_2 location hl =>
      split
      case h_1 => exact ⟨_, rfl, hs⟩
      case h_2 next hj =>
        -- The rest of the call starts where the response points to.
        have hc {new} := Hops.cons (l := new) (e := ⟨_, .ok response⟩) hg ⟨_, ha.symm⟩
          ⟨response, location, rfl, h₂, hl, hj⟩
        refine hi.mono ?_ ?_
        case refine_1 =>
          rintro r _ ⟨new, e, rfl, hn, he, hr⟩
          exact ⟨_, e, by simp, hc hn, List.mem_getLast?_cons he, hr⟩
        case refine_2 =>
          rintro _ _ ⟨new, rfl, hn⟩
          exact ⟨_, by simp, hc hn⟩

theorem request_ensures {method : Method} {url : String} {body : Option Bytes} :
    (f.request method url headers body).Ensures log
      (fun r log' => ∃ new e, log' = log ++ new ∧ f.Hops headers (f.lib.parseUrl url) new ∧
        new.getLast? = some e ∧ f.Returned e r)
      fun _ log' => ∃ new, log' = log ++ new ∧ f.Hops headers (f.lib.parseUrl url) new := by
  unfold request
  split
  case h_1      => exact ⟨[], by simp, .nil⟩
  case h_2 hu   =>
    rw [hu]
    exact follow_ensures

theorem request_exec (f : GuardedFetcher) (log : Log) (method : Method) (url : String)
    (headers : List (String × String)) (body : Option Bytes) :
    ∃ new, (f.request method url headers body).exec log = log ++ new ∧
      f.Hops headers (f.lib.parseUrl url) new :=
  Ensures.exec (P := fun log' => ∃ new, log' = log ++ new ∧ f.Hops headers _ new) <|
    request_ensures.mono (fun _ _ ⟨new, _, hl, hn, _⟩ => ⟨new, hl, hn⟩) fun _ _ h => h

end GuardedFetcher
