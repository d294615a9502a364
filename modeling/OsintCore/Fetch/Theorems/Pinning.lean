import OsintCore.Fetch.Theorems.Host

open Resumption

-- The address a client connects to. What has been registered for a name counts for this very name
-- only, any other one is resolved again.
def Request.address (r : Request) (resolve : String → Option Ip) : Option Ip :=
  r.url.host >>= fun host => if host = r.pinnedHost then some r.pinnedIp else resolve host

namespace GuardedFetcher

-- The name registered for the request is the one in its URL, and so the client connects to an address
-- which has passed the guard with this URL.
def Pinned (f : GuardedFetcher) (r : Request) : Prop :=
  r.url.host = some r.pinnedHost ∧ ∃ now d, SsrfGuard.Passed f.guard f.lib r.url now d ∧
    ∀ resolve, ∃ ip ∈ d.ips, r.address resolve = some ip

variable {f : GuardedFetcher} {headers : List (String × String)}

theorem Guarded.pinned_iff {r : Request} (h : f.Guarded headers r) :
    f.Pinned r ↔ ∀ host ∈ r.url.host, PlainHost host := by
  have ⟨now, d, hp, hh, hi, _⟩ := h.passed
  have ⟨host, hu, hd⟩ := Option.map_eq_some_iff.mp hp.host
  have hn : host = r.pinnedHost ↔ PlainHost host := by
    rw [hh, ← hd, ← normalizeHost_eq_self, eq_comm]
  simp only [hu, Option.mem_some_iff, forall_eq', ← hn]
  constructor
  case mp => exact fun h => Option.some.inj <| hu.symm.trans h.left
  case mpr =>
    intro he
    refine ⟨hu.trans <| congrArg some he, now, d, hp, fun resolve => ⟨_, List.head_mem d.ips_ne_nil, ?_⟩⟩
    simp [Request.address, hu, he, hi, SsrfGuard.pinnedIp]

-- Whether a request of a call goes where the guard has looked depends on how its URL spells the host.
theorem request_pinned (f : GuardedFetcher) (log : Log) (method : Method) (url : String)
    (headers : List (String × String)) (body : Option Bytes) :
    ∃ new, (f.request method url headers body).exec log = log ++ new ∧
      ∀ e ∈ new, f.Pinned e.request ↔ ∀ host ∈ e.request.url.host, PlainHost host := by
  have ⟨new, hl, hn⟩ := f.request_exec log method url headers body
  exact ⟨new, hl, fun e he => (hn.guarded e he).pinned_iff⟩

def trailingDot : GuardedFetcher where
  guard := { sourceId := 0, policy := {}, rules := [] }
  lib   := .ofTable [("http://example.com./", ⟨"http", "example.com.", none, "/"⟩)] []
  env   := .ofAnswers fun _ _ => .ok ⟨200, [], none, []⟩

-- The name is registered without the dot, and the client resolves the name with it on its own.
theorem not_request_pinned : ¬∀ (f : GuardedFetcher) (log : Log) (method : Method) (url : String)
    (headers : List (String × String)) (body : Option Bytes) (new : Log),
    (f.request method url headers body).exec log = log ++ new → ∀ e ∈ new, f.Pinned e.request := by
  intro h
  have hl := h trailingDot [] .get "http://example.com./" [] none _ (List.nil_append _).symm
  have hr : ((trailingDot.request .get "http://example.com./" [] none).exec []).map
      (fun e => (e.request.url.host, e.request.pinnedHost)) =
        [(some "example.com.", "example.com")] := by decide +kernel
  have ⟨e, he, hp⟩ := List.mem_map.mp <| hr ▸ List.mem_singleton_self _
  have hn := (hl e he).left
  rw [(Prod.mk.inj hp).left, (Prod.mk.inj hp).right] at hn
  exact absurd hn (by decide)

end GuardedFetcher
