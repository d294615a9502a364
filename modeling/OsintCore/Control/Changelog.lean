import OsintCore.Control.Fold

-- A state of rows which announces what happens to them: `read` looks a row up, `log` is what has
-- been announced so far, an announcement names the row `key`, and `shows c v` says that `c`
-- describes a row with the value `v`.
structure Changelog (σ K V C : Type) where
  read  : σ → K → Option V
  log   : σ → List C
  key   : C → K
  shows : C → Option V → Prop

namespace Changelog

variable {σ K V C : Type} [DecidableEq K] {L : Changelog σ K V C} {s s' s'' : σ} {ks ks' : List K}

def lastOf (L : Changelog σ K V C) (new : List C) (k : K) : Option C :=
  (new.filter (L.key · = k)).getLast?

-- Between the two states the rows `ks` have been announced, in this order. All other rows are as
-- they were, and the last announcement of each row is true of the second state.
structure Announces (L : Changelog σ K V C) (s s' : σ) (ks : List K) (new : List C) : Prop where
  log     : L.log s' = L.log s ++ new
  keys    : new.map L.key = ks
  unnamed : ∀ k ∉ ks, L.read s' k = L.read s k
  last    : ∀ k, ∀ c ∈ L.lastOf new k, L.shows c (L.read s' k)

def Extends (L : Changelog σ K V C) (s s' : σ) (ks : List K) : Prop :=
  ∃ new, L.Announces s s' ks new

theorem lastOf_append {new new' : List C} {k : K} :
    L.lastOf (new ++ new') k = (L.lastOf new' k).or (L.lastOf new k) := by
  simp [lastOf, List.getLast?_append]

theorem lastOf_eq_none {new : List C} {k : K} : L.lastOf new k = none ↔ k ∉ new.map L.key := by
  simp [lastOf]

theorem Extends.silent (hl : L.log s' = L.log s) (hr : L.read s' = L.read s) :
    L.Extends s s' [] :=
  ⟨[], by simp [hl], rfl, fun k _ => congrFun hr k, by simp [lastOf]⟩

theorem Extends.refl : L.Extends s s [] :=
  .silent rfl rfl

theorem Extends.write {c : C} {i : K} (hi : L.key c = i) (hl : L.log s' = L.log s ++ [c])
    (hr : ∀ k, i ≠ k → L.read s' k = L.read s k) (hs : L.shows c (L.read s' i)) :
    L.Extends s s' [i] := by
  subst hi
  refine ⟨[c], hl, rfl, fun k hk => hr k fun h => hk <| by simp [h], fun k c' hc => ?_⟩
  by_cases hk : L.key c = k
  case pos =>
    obtain rfl : c = c' := by simpa [lastOf, hk] using hc
    exact hk ▸ hs
  case neg => simp [lastOf, hk] at hc

theorem Extends.trans (h : L.Extends s s' ks) (h' : L.Extends s' s'' ks') :
    L.Extends s s'' (ks ++ ks') := by
  have ⟨new, h⟩ := h
  have ⟨new', h'⟩ := h'
  refine ⟨new ++ new', ?log, ?keys, fun k hk => ?unnamed, fun k c hc => ?last⟩
  case log  => rw [h'.log, h.log, List.append_assoc]
  case keys => rw [List.map_append, h.keys, h'.keys]
  case unnamed =>
    have ⟨hk, hk'⟩ := not_or.mp <| hk ∘ List.mem_append.mpr
    exact h'.unnamed k hk' |>.trans <| h.unnamed k hk
  case last =>
    rw [lastOf_append] at hc
    cases hc' : L.lastOf new' k
    case some c' =>
      obtain rfl : c' = c := by simpa [hc'] using hc
      exact h'.last k _ hc'
    case none =>
      -- Nothing has happened to the row since it was announced.
      have hk : k ∉ ks' := h'.keys ▸ lastOf_eq_none.mp hc'
      rw [h'.unnamed k hk]
      exact h.last k c <| by simpa [hc'] using hc

section Loops

variable {α β ε : Type} {v : β → σ} {keys : α → List K} {l : List α} {b b' : β}

-- What the steps of a loop announce of a view of its state, the loop announces.
theorem Extends.foldlM {f : β → α → Except ε β} (h : l.foldlM f b = .ok b')
    (hs : ∀ b b', ∀ a ∈ l, f b a = .ok b' → L.Extends (v b) (v b') (keys a)) :
    L.Extends (v b) (v b') (l.flatMap keys) := by
  induction l generalizing b
  case nil =>
    cases h
    exact .refl
  case cons a l hi =>
    simp only [List.foldlM_cons, Except.bind_eq_ok] at h
    obtain ⟨b₁, h₁, h⟩ := h
    rw [List.flatMap_cons]
    exact (hs _ _ a List.mem_cons_self h₁).trans <|
      hi h fun b b' a ha => hs b b' a (List.mem_cons_of_mem _ ha)

theorem Extends.foldlM_silent {f : β → α → Except ε β} (h : l.foldlM f b = .ok b')
    (hs : ∀ b b', ∀ a ∈ l, f b a = .ok b' → L.Extends (v b) (v b') []) :
    L.Extends (v b) (v b') [] := by
  have hn : l.flatMap (fun _ => ([] : List K)) = [] := List.flatMap_eq_nil_iff.mpr fun _ _ => rfl
  exact hn ▸ Extends.foldlM h hs

theorem Extends.foldl {f : β → α → β} (hs : ∀ b, ∀ a ∈ l, L.Extends (v b) (v (f b a)) (keys a)) :
    L.Extends (v b) (v (l.foldl f b)) (l.flatMap keys) := by
  induction l generalizing b
  case nil => exact .refl
  case cons a l hi =>
    rw [List.flatMap_cons, List.foldl_cons]
    exact (hs _ a List.mem_cons_self).trans <| hi fun b a ha => hs b a (List.mem_cons_of_mem _ ha)

end Loops

end Changelog
