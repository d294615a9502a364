import Mathlib

namespace Relation

variable {α : Type} {r r' : α → α → Prop} {a b m s : α}

def Acyclic (r : α → α → Prop) : Prop :=
  ∀ a, ¬TransGen r a a

-- A new edge adds no paths but the ones through it.
theorem transGen_of_edge (hr : ∀ a b, r' a b → r a b ∨ a = m ∧ b = s) (h : TransGen r' a b) :
    TransGen r a b ∨ ReflTransGen r a m ∧ ReflTransGen r s b := by
  induction h
  case single hab =>
    obtain h | ⟨rfl, rfl⟩ := hr _ _ hab
    case inl => exact .inl <| .single h
    case inr => exact .inr ⟨.refl, .refl⟩
  case tail hbc hi =>
    obtain h | ⟨rfl, rfl⟩ := hr _ _ hbc
    case inl => exact hi.imp (·.tail h) fun ⟨ha, hb⟩ => ⟨ha, hb.tail h⟩
    case inr => exact .inr ⟨hi.elim TransGen.to_reflTransGen And.left, .refl⟩

-- A new edge closes a cycle only if its end reaches its start already.
theorem Acyclic.of_edge (h : Acyclic r) (hr : ∀ a b, r' a b → r a b ∨ a = m ∧ b = s)
    (hs : ¬ReflTransGen r s m) : Acyclic r' := by
  intro a ha
  obtain ha | ⟨ha, hb⟩ := transGen_of_edge hr ha
  · exact h a ha
  · exact hs <| hb.trans ha

end Relation

-- A breadth-first search which remembers from where it has come to each vertex, and by which edge.
structure Search (V E : Type) where
  parent : V → Option (V × E)
  dist   : V → Option Nat
  queue  : List V

namespace Search

variable {V E : Type}

section

variable [DecidableEq V]

def start (root : V) : Search V E where
  parent _ := none
  dist     := Function.update (fun _ => none) root (some 0)
  queue    := [root]

def discover (cur : V) (d : Nat) (s : Search V E) (x : E × V) : Search V E :=
  match s.dist x.snd with
  | some _ => s
  | none   => {
    parent := Function.update s.parent x.snd (some (cur, x.fst))
    dist   := Function.update s.dist x.snd (some (d + 1))
    queue  := s.queue ++ [x.snd] }

variable (next : V → List (E × V)) (target : Option V) (limit : Nat)

-- The search ends when the target, if there is one, is taken off the queue. Nothing is looked for
-- beyond the limit.
def loop : (fuel : Nat) → Search V E → Search V E
  | 0, s        => s
  | fuel + 1, s =>
    match s.queue with
    | []          => s
    | cur :: rest =>
      let s := { s with queue := rest }
      if target = some cur then s
      else
        let d := (s.dist cur).getD 0
        if limit ≤ d then loop fuel s
        else loop fuel <| (next cur).foldl (discover cur d) s

end

variable (next : V → List (E × V))

-- A walk of `n` edges leads from `u` to the vertex.
inductive Joins (u : V) : V → Nat → Prop
  | refl : Joins u u 0
  | tail {v w : V} {e : E} {n : Nat} (walk : Joins u v n) (mem : (e, w) ∈ next v) :
    Joins u w (n + 1)

variable {next} {limit : Nat} {target : Option V} {root cur v w : V} {d k n : Nat} {s : Search V E}
variable {e : E} {x : E × V}
variable {popped rest : List V} {l : List (E × V)}

-- All that is near enough to `v` has been found.
def Closed (next : V → List (E × V)) (s : Search V E) (v : V) (k : Nat) : Prop :=
  ∀ e w, (e, w) ∈ next v → ∃ m ≤ k + 1, s.dist w = some m

-- What holds while the vertices of `popped` have been taken off the queue, of which all but those of
-- `opened` have been dealt with.
structure Progress (next : V → List (E × V)) (limit : Nat) (root : V) (popped opened : List V)
    (s : Search V E) : Prop where
  dist_root : s.dist root = some 0
  found     : ∀ v, (s.dist v).isSome ↔ v ∈ popped ∨ v ∈ s.queue
  nodup     : (popped ++ s.queue).Nodup
  parent    : ∀ v k, s.dist v = some k → v = root ∧ k = 0 ∨
              ∃ u e m, s.parent v = some (u, e) ∧ (e, v) ∈ next u ∧ s.dist u = some m ∧ k = m + 1
  orphan    : ∀ v, s.parent v = none ↔ v = root ∨ s.dist v = none
  le_limit  : ∀ v k, s.dist v = some k → k ≤ limit
  shortest  : ∀ v k, s.dist v = some k → ∀ n, Joins next root v n → k ≤ n
  sorted    : s.queue.Pairwise fun u v => ∀ k m, s.dist u = some k → s.dist v = some m → k ≤ m
  closed    : ∀ v ∈ popped, v ∉ opened → ∀ k < limit, s.dist v = some k → Closed next s v k

-- If all that is nearer than `d` has been dealt with, then walks of up to `d` edges lead to what has
-- been found.
theorem found_of_joins (hr : s.dist root = some 0)
    (hc : ∀ v, ∀ k < d, s.dist v = some k → Closed next s v k) (h : Joins next root v n)
    (hn : n ≤ d) : ∃ k ≤ n, s.dist v = some k := by
  induction h
  case refl => exact ⟨0, le_rfl, hr⟩
  case tail v w e n _ hm hi =>
    have ⟨k, hk, hv⟩ := hi (by omega)
    have ⟨m, hm, hw⟩ := hc v k (by omega) hv e w hm
    exact ⟨m, by omega, hw⟩

-- The vertex `cur` is being dealt with.
structure Expanding (next : V → List (E × V)) (limit : Nat) (root : V) (popped : List V) (cur : V)
    (d : Nat) (s : Search V E) : Prop where
  progress : Progress next limit root popped [cur] s
  mem      : cur ∈ popped
  dist     : s.dist cur = some d
  lt       : d < limit
  upper    : ∀ v k, s.dist v = some k → k ≤ d + 1
  lower    : ∀ v ∈ s.queue, ∀ k, s.dist v = some k → d ≤ k

theorem Expanding.closed_of_lt (h : Expanding next limit root popped cur d s) (hk : k < d)
    (hv : s.dist v = some k) : Closed next s v k := by
  have hf : v ∈ popped ∨ v ∈ s.queue := (h.progress.found v).mp (by rw [hv]; rfl)
  have hq : v ∉ s.queue := fun hq => absurd (h.lower v hq k hv) (by omega)
  have hne : v ∉ [cur] := by
    intro he
    rw [List.mem_singleton.mp he, h.dist] at hv
    cases hv
    exact absurd hk (lt_irrefl _)
  exact h.progress.closed v (hf.resolve_right hq) hne k (hk.trans h.lt) hv

-- The search between two vertices.
structure Ready (next : V → List (E × V)) (limit : Nat) (root : V) (popped : List V)
    (s : Search V E) : Prop where
  progress : Progress next limit root popped [] s
  spread   : ∀ u ∈ s.queue, ∀ m, s.dist u = some m → ∀ v k, s.dist v = some k → k ≤ m + 1

section Pop

variable (h : Ready next limit root popped s) (hq : s.queue = cur :: rest)
include h hq

theorem Ready.dist_head : ∃ d, s.dist cur = some d :=
  Option.isSome_iff_exists.mp <| (h.progress.found cur).mpr <| .inr <| hq ▸ .head _

theorem Ready.pop {opened : List V} (hc : cur ∈ opened ∨ ∀ k < limit, s.dist cur ≠ some k) :
    Progress next limit root (cur :: popped) opened { s with queue := rest } := by
  have hp := h.progress
  have hperm : (popped ++ s.queue).Perm ((cur :: popped) ++ rest) := by
    rw [hq, List.cons_append]
    exact List.perm_middle
  refine ⟨hp.dist_root, fun v => ?found, hperm.nodup_iff.mp hp.nodup, hp.parent, hp.orphan,
    hp.le_limit, hp.shortest, ?sorted, fun v hv hn k hk hd => ?closed⟩
  case found =>
    rw [hp.found, hq, List.mem_cons, List.mem_cons]
    exact or_left_comm.trans or_assoc.symm
  case sorted => exact (List.pairwise_cons.mp <| hq ▸ hp.sorted).right
  case closed =>
    cases hv
    case tail hv => exact hp.closed v hv (List.not_mem_nil) k hk hd
    case head =>
      cases hc
      case inl hc => exact absurd hc hn
      case inr hc => exact absurd hd (hc k hk)

theorem Ready.expanding (hd : s.dist cur = some d) (hlt : d < limit) :
    Expanding next limit root (cur :: popped) cur d { s with queue := rest } where
  progress := h.pop hq <| .inl <| .head _
  mem      := .head _
  dist     := hd
  lt       := hlt
  upper    := h.spread cur (hq ▸ .head _) d hd
  lower    := by
    intro v hv k hk
    have hs := (List.pairwise_cons.mp <| hq ▸ h.progress.sorted).left
    exact hs v hv d k hd hk

-- Where nothing is looked for beyond `cur`.
theorem Ready.skip (hd : s.dist cur = some d) (hle : limit ≤ d) :
    Ready next limit root (cur :: popped) { s with queue := rest } where
  progress := by
    refine h.pop hq <| .inr fun k hk he => ?_
    rw [hd] at he
    cases he
    omega
  spread u hu := h.spread u <| hq ▸ .tail _ hu

end Pop

section

variable [DecidableEq V]

theorem progress_start : Progress next limit root [] [] (start root : Search V E) where
  dist_root   := by simp [start]
  found v     := by by_cases h : v = root <;> simp [start, h]
  nodup       := by simp [start]
  parent v k h := by
    by_cases hv : v = root
    case pos => exact .inl ⟨hv, by simpa [start, hv, eq_comm] using h⟩
    case neg => simp [start, hv] at h
  orphan v    := by by_cases h : v = root <;> simp [start, h]
  le_limit v k h := by
    by_cases hv : v = root
    case pos =>
      have hk : 0 = k := by simpa [start, hv] using h
      omega
    case neg => simp [start, hv] at h
  shortest v k h := by
    by_cases hv : v = root
    case pos =>
      have hk : 0 = k := by simpa [start, hv] using h
      omega
    case neg => simp [start, hv] at h
  sorted      := by simp [start]
  closed      := by simp

theorem discover_some (h : s.dist x.snd = some k) : discover cur d s x = s := by
  rw [discover, h]

theorem dist_discover (h : s.dist x.snd = none) :
    (discover cur d s x).dist = Function.update s.dist x.snd (some (d + 1)) := by
  rw [discover, h]

theorem parent_discover (h : s.dist x.snd = none) :
    (discover cur d s x).parent = Function.update s.parent x.snd (some (cur, x.fst)) := by
  rw [discover, h]

theorem queue_discover (h : s.dist x.snd = none) :
    (discover cur d s x).queue = s.queue ++ [x.snd] := by
  rw [discover, h]

-- What has been found keeps its distance.
theorem dist_discover_of_some (h : s.dist v = some k) :
    (discover cur d s x).dist v = some k := by
  cases hx : s.dist x.snd
  case some => rw [discover_some hx, h]
  case none =>
    have hne : v ≠ x.snd := fun he => by rw [he, hx] at h; cases h
    rw [dist_discover hx, Function.update_of_ne hne, h]

theorem Closed.discover (h : Closed next s v k) : Closed next (discover cur d s x) v k := by
  intro e w hm
  have ⟨m, hle, hw⟩ := h e w hm
  exact ⟨m, hle, dist_discover_of_some hw⟩

theorem Expanding.discover (h : Expanding next limit root popped cur d s) (hx : x ∈ next cur) :
    Expanding next limit root popped cur d (discover cur d s x) := by
  cases hd : s.dist x.snd
  case some => rwa [discover_some hd]
  case none =>
    have ne_of_some {v : V} {k : Nat} (hv : s.dist v = some k) : v ≠ x.snd :=
      fun he => by rw [he, hd] at hv; cases hv
    have old {v : V} {k : Nat} (hv : (Search.discover cur d s x).dist v = some k) :
        v = x.snd ∧ k = d + 1 ∨ v ≠ x.snd ∧ s.dist v = some k := by
      rw [dist_discover hd] at hv
      by_cases he : v = x.snd
      case pos => exact .inl ⟨he, by simpa [he, eq_comm] using hv⟩
      case neg => exact .inr ⟨he, by rwa [Function.update_of_ne he] at hv⟩
    have notMem : ¬(x.snd ∈ popped ∨ x.snd ∈ s.queue) := by
      rw [← h.progress.found, hd]
      exact Bool.false_ne_true
    have hd' : (Search.discover cur d s x).dist x.snd = some (d + 1) := by simp [dist_discover hd]
    refine ⟨?progress, h.mem, dist_discover_of_some h.dist, h.lt, ?upper, ?lower⟩
    case upper =>
      intro v k hv
      cases old hv
      case inl hv => exact hv.right.le
      case inr hv => exact h.upper v k hv.right
    case lower =>
      intro v hq k hv
      cases old hv
      case inl hv => omega
      case inr hv =>
        rw [queue_discover hd] at hq
        have hq : v ∈ s.queue := (List.mem_append.mp hq).resolve_right <| by simpa using hv.left
        exact h.lower v hq k hv.right
    refine ⟨dist_discover_of_some h.progress.dist_root, ?found, ?nodup, ?parent, ?orphan, ?le_limit,
      ?shortest, ?sorted, ?closed⟩
    case found =>
      intro v
      rw [queue_discover hd, dist_discover hd, List.mem_append, List.mem_singleton]
      by_cases he : v = x.snd
      case pos => simp [he]
      case neg => rw [Function.update_of_ne he, h.progress.found]; simp [he]
    case nodup =>
      rw [queue_discover hd, ← List.append_assoc]
      refine h.progress.nodup.append (List.nodup_singleton _) ?_
      simpa [List.disjoint_singleton] using notMem
    case parent =>
      intro v k hv
      rw [parent_discover hd]
      cases old hv
      case inl hv =>
        obtain ⟨rfl, rfl⟩ := hv
        refine .inr ⟨cur, x.fst, d, by simp, hx, dist_discover_of_some h.dist, rfl⟩
      case inr hv =>
        cases h.progress.parent v k hv.right
        case inl hr => exact .inl hr
        case inr hp =>
          have ⟨u, e, m, hp, hm, hu, hk⟩ := hp
          refine .inr ⟨u, e, m, ?_, hm, dist_discover_of_some hu, hk⟩
          rw [Function.update_of_ne hv.left, hp]
    case orphan =>
      intro v
      rw [parent_discover hd, dist_discover hd]
      by_cases he : v = x.snd
      case pos =>
        have hr : x.snd ≠ root := (ne_of_some h.progress.dist_root).symm
        simp [he, hr]
      case neg => rw [Function.update_of_ne he, Function.update_of_ne he, h.progress.orphan]
    case le_limit =>
      intro v k hv
      have hlt := h.lt
      cases old hv
      case inl hv => omega
      case inr hv => exact h.progress.le_limit v k hv.right
    case shortest =>
      intro v k hv n hn
      cases old hv
      case inr hv => exact h.progress.shortest v k hv.right n hn
      case inl hv =>
        obtain ⟨rfl, rfl⟩ := hv
        by_contra hlt
        have ⟨m, _, hm⟩ := found_of_joins h.progress.dist_root
          (fun v k hk hv => h.closed_of_lt hk hv) hn (by omega)
        rw [hd] at hm
        cases hm
    case sorted =>
      rw [queue_discover hd]
      refine List.pairwise_append.mpr ⟨?_, List.pairwise_singleton _ _, ?_⟩
      case refine_1 =>
        refine h.progress.sorted.imp_of_mem fun {u v} hu hv hs k m hk hm => ?_
        have hne {v : V} (hv : v ∈ s.queue) : v ≠ x.snd := fun he => notMem <| .inr <| he ▸ hv
        rw [dist_discover hd] at hk hm
        rw [Function.update_of_ne (hne hu)] at hk
        rw [Function.update_of_ne (hne hv)] at hm
        exact hs k m hk hm
      case refine_2 =>
        intro u hu v hv k m hk hm
        rw [List.mem_singleton.mp hv, hd'] at hm
        cases hm
        cases old hk
        case inl hu => exact hu.right.le
        case inr hu => exact h.upper u k hu.right
    case closed =>
      intro v hv hne k hk hd
      cases old hd
      case inl hx => exact absurd (.inl <| hx.left ▸ hv) notMem
      case inr hd => exact (h.progress.closed v hv hne k hk hd.right).discover

-- All that is next to `cur` gets found.
theorem Expanding.foldl (h : Expanding next limit root popped cur d s) (hl : ∀ x ∈ l, x ∈ next cur) :
    Expanding next limit root popped cur d (l.foldl (Search.discover cur d) s) ∧
      (∀ v k, s.dist v = some k → (l.foldl (Search.discover cur d) s).dist v = some k) ∧
      ∀ x ∈ l, ∃ m ≤ d + 1, (l.foldl (Search.discover cur d) s).dist x.snd = some m := by
  induction l generalizing s
  case nil => exact ⟨h, fun _ _ => id, by simp⟩
  case cons x l hi =>
    have ⟨hx, hl⟩ := List.forall_mem_cons.mp hl
    have ⟨h', hk, hm⟩ := hi (h.discover hx) hl
    refine ⟨h', fun v k hv => hk v k (dist_discover_of_some hv), ?_⟩
    refine List.forall_mem_cons.mpr ⟨?_, hm⟩
    cases hd : s.dist x.snd
    case some m => exact ⟨m, h.upper _ _ hd, hk _ _ <| dist_discover_of_some hd⟩
    case none =>
      refine ⟨d + 1, le_rfl, hk _ _ ?_⟩
      rw [dist_discover hd, Function.update_self]

theorem ready_start : Ready next limit root [] (start root : Search V E) where
  progress := progress_start
  spread   := by
    intro u _ m _ v k hv
    have hp : Progress next limit root [] [] (start root : Search V E) := progress_start
    have hk : k = 0 := by
      cases hp.parent v k hv
      case inl h => exact h.right
      case inr h =>
        have ⟨u, e, m, hp, _⟩ := h
        cases hp
    omega

theorem Ready.expand (h : Ready next limit root popped s) (hq : s.queue = cur :: rest)
    (hd : s.dist cur = some d) (hlt : d < limit) :
    Ready next limit root (cur :: popped)
      ((next cur).foldl (Search.discover cur d) { s with queue := rest }) := by
  have ⟨he, _, hf⟩ := (h.expanding hq hd hlt).foldl fun _ => id
  have hp := he.progress
  refine ⟨⟨hp.dist_root, hp.found, hp.nodup, hp.parent, hp.orphan, hp.le_limit, hp.shortest,
    hp.sorted, fun v hv _ k hk hd' => ?_⟩, fun u hu m hm v k hv => ?_⟩
  case refine_1 =>
    by_cases hn : v = cur
    case neg => exact hp.closed v hv (by simpa using hn) k hk hd'
    case pos =>
      subst hn
      rw [he.dist] at hd'
      cases hd'
      exact fun e w hm => hf (e, w) hm
  case refine_2 =>
    have hl := he.lower u hu m hm
    have hu := he.upper v k hv
    omega

-- Either the target has been found, or all that is near enough.
theorem Ready.loop {vs : List V} (hr : root ∈ vs) (hn : ∀ v, ∀ x ∈ next v, x.snd ∈ vs) {fuel : Nat}
    (hf : vs.length < fuel + popped.length) (h : Ready next limit root popped s) :
    ∃ popped opened, Progress next limit root popped opened (s.loop next target limit fuel) ∧
      ((∃ t d, target = some t ∧ (s.loop next target limit fuel).dist t = some d) ∨
        (s.loop next target limit fuel).queue = [] ∧ opened = []) := by
  induction fuel generalizing s popped
  case zero =>
    -- Nothing is taken off the queue twice.
    have hsub : popped ++ s.queue ⊆ vs := by
      intro v hv
      have ⟨k, hk⟩ := Option.isSome_iff_exists.mp <|
        (h.progress.found v).mpr <| List.mem_append.mp hv
      cases h.progress.parent v k hk
      case inl he => exact he.left ▸ hr
      case inr he =>
        have ⟨u, e, _, _, hm, _⟩ := he
        exact hn u _ hm
    have hl := (h.progress.nodup.subperm hsub).length_le
    rw [List.length_append] at hl
    omega
  case succ fuel hi =>
    rw [Search.loop]
    cases hq : s.queue
    case nil => exact ⟨popped, [], h.progress, .inr ⟨hq, rfl⟩⟩
    case cons cur rest =>
      have ⟨d, hd⟩ := h.dist_head hq
      have hf : vs.length < fuel + (cur :: popped).length := by
        rw [List.length_cons]
        omega
      simp only [hd, Option.getD_some]
      split
      case isTrue ht =>
        exact ⟨cur :: popped, [cur], h.pop hq <| .inl <| .head _, .inl ⟨cur, d, ht, hd⟩⟩
      case isFalse =>
        split
        case isTrue hle  => exact hi hf <| h.skip hq hd hle
        case isFalse hlt => exact hi hf <| h.expand hq hd (by omega)

end

-- A chain of steps, each of which leads along an edge to a vertex.
inductive Chain (next : V → List (E × V)) : V → List (E × V) → V → Prop
  | nil {u : V} : Chain next u [] u
  | cons {u v : V} {x : E × V} {steps : List (E × V)} (mem : x ∈ next u)
    (rest : Chain next x.snd steps v) : Chain next u (x :: steps) v

theorem Chain.snoc {steps : List (E × V)} (h : Chain next v steps w) (hx : x ∈ next w) :
    Chain next v (steps ++ [x]) x.snd := by
  induction h
  case nil         => exact .cons hx .nil
  case cons hm _ hi => exact .cons hm (hi hx)

theorem Joins.chain (h : Joins next root v n) : ∃ steps, steps.length = n ∧ Chain next root steps v := by
  induction h
  case refl => exact ⟨[], rfl, .nil⟩
  case tail v w e n _ hm hi =>
    have ⟨steps, hl, hc⟩ := hi
    exact ⟨steps ++ [(e, w)], by rw [List.length_append, hl, List.length_singleton], hc.snoc hm⟩

-- The way back to the root, by the parents.
def trace [DecidableEq V] (parent : V → Option (V × E)) (root : V) :
    (fuel : Nat) → V → List (E × V) → Option (List (E × V))
  | 0, cur, steps        => if cur = root then some steps else none
  | fuel + 1, cur, steps =>
    if cur = root then some steps
    else match parent cur with
      | none           => none
      | some (prev, e) => trace parent root fuel prev ((e, cur) :: steps)

theorem Progress.trace [DecidableEq V] {opened : List V} {steps : List (E × V)} {fuel : Nat}
    (h : Progress next limit root popped opened s) (hv : s.dist v = some k) (hk : k ≤ fuel)
    (hc : Chain next v steps w) : ∃ steps', trace s.parent root fuel v steps = some steps' ∧
      steps'.length = k + steps.length ∧ Chain next root steps' w := by
  induction fuel generalizing v k steps
  case zero =>
    have hr : v = root ∧ k = 0 := by
      refine (h.parent v k hv).resolve_right ?_
      rintro ⟨_, _, _, _, _, _, rfl⟩
      omega
    refine ⟨steps, if_pos hr.left, ?_, hr.left ▸ hc⟩
    rw [hr.right, Nat.zero_add]
  case succ fuel hi =>
    rw [Search.trace]
    split
    case isTrue hr =>
      have hk : k = 0 := by
        rw [hr, h.dist_root] at hv
        exact (Option.some.inj hv).symm
      exact ⟨steps, rfl, by rw [hk, Nat.zero_add], hr ▸ hc⟩
    case isFalse hr =>
      have ⟨u, e, m, hp, hm, hu, hkm⟩ := (h.parent v k hv).resolve_left fun he => hr he.left
      rw [hp]
      have ⟨steps', ht, hl, hs⟩ := hi hu (by omega) (.cons (x := (e, v)) hm hc)
      refine ⟨steps', ht, ?_, hs⟩
      rw [hl, List.length_cons, hkm]
      omega

theorem Progress.joins {opened : List V} (h : Progress next limit root popped opened s)
    (hv : s.dist v = some k) : Joins next root v k := by
  induction k generalizing v
  case zero =>
    cases h.parent v 0 hv
    case inl hr => exact hr.left ▸ .refl
    case inr hp =>
      have ⟨_, _, m, _, _, _, hk⟩ := hp
      omega
  case succ k hi =>
    cases h.parent v (k + 1) hv
    case inl hr => omega
    case inr hp =>
      have ⟨u, e, m, _, hm, hu, hk⟩ := hp
      exact .tail (hi <| (Nat.succ.inj hk).symm ▸ hu) hm

-- Where nothing is left to be dealt with, all that a walk within the limit leads to has been found.
theorem Progress.found_of_joins (h : Progress next limit root popped [] s) (hq : s.queue = [])
    (hj : Joins next root v n) (hn : n ≤ limit) : ∃ k ≤ n, s.dist v = some k := by
  refine Search.found_of_joins h.dist_root (fun v k hk hv => ?_) hj hn
  have hm := (h.found v).mp (by rw [hv]; rfl)
  rw [hq] at hm
  exact h.closed v (hm.resolve_right List.not_mem_nil) List.not_mem_nil k hk hv

section

variable [DecidableEq V] {vs : List V} (hr : root ∈ vs) (hn : ∀ v, ∀ x ∈ next v, x.snd ∈ vs)
variable {fuel : Nat} (hf : vs.length < fuel)
include hr hn hf

theorem progress_loop (limit : Nat) (target : Option V) : ∃ popped opened,
    Progress next limit root popped opened (loop next target limit fuel (start root)) ∧
      ((∃ t d, target = some t ∧ (loop next target limit fuel (start root)).dist t = some d) ∨
        (loop next target limit fuel (start root)).queue = [] ∧ opened = []) :=
  ready_start.loop hr hn (by simpa using hf)

omit hr hn hf in
theorem loop_zero : (loop next none 0 fuel (start root)).dist = (start root : Search V E).dist := by
  cases fuel
  case zero => rfl
  case succ fuel => cases fuel <;> rfl

-- The search without a target finds each vertex at its distance.
theorem dist_loop : (loop next none limit fuel (start root)).dist v = some d ↔
    d ≤ limit ∧ Joins next root v d ∧ ∀ n, Joins next root v n → d ≤ n := by
  have ⟨popped, opened, hp, he⟩ := progress_loop hr hn hf limit none
  have ⟨hq, ho⟩ := he.resolve_left fun ⟨t, d, ht, _⟩ => by cases ht
  subst ho
  constructor
  case mp  => exact fun hd => ⟨hp.le_limit v d hd, hp.joins hd, hp.shortest v d hd⟩
  case mpr =>
    intro ⟨hle, hj, hs⟩
    have ⟨k, hk, hd⟩ := hp.found_of_joins hq hj hle
    rw [hd, Nat.le_antisymm hk <| hs k <| hp.joins hd]

-- The search from one vertex to another finds a shortest chain within the limit, or there is none.
theorem trace_loop (limit : Nat) (t : V) : match (loop next (some t) limit fuel (start root)).dist t with
    | none   => (loop next (some t) limit fuel (start root)).parent t = none ∧
      ∀ n ≤ limit, ¬Joins next root t n
    | some d => ((loop next (some t) limit fuel (start root)).parent t = none → t = root) ∧
      d ≤ limit ∧ (∀ n, Joins next root t n → d ≤ n) ∧
      ∃ steps, trace (loop next (some t) limit fuel (start root)).parent root limit t [] = some steps ∧
        steps.length = d ∧ Chain next root steps t := by
  have ⟨popped, opened, hp, he⟩ := progress_loop hr hn hf limit (some t)
  split
  case h_1 hd =>
    refine ⟨(hp.orphan t).mpr <| .inr hd, fun n hle hj => ?_⟩
    cases he
    case inl he =>
      have ⟨t', d, ht, he⟩ := he
      cases ht
      rw [hd] at he
      cases he
    case inr he =>
      have ⟨k, _, hk⟩ := (he.right ▸ hp).found_of_joins he.left hj hle
      rw [hd] at hk
      cases hk
  case h_2 d hd =>
    have hle := hp.le_limit t d hd
    have ⟨steps, ht, hl, hc⟩ := hp.trace hd hle .nil
    refine ⟨fun hn => ?_, hle, hp.shortest t d hd, steps, ht, hl, hc⟩
    exact ((hp.orphan t).mp hn).resolve_right fun h => by rw [hd] at h; cases h

end

end Search
