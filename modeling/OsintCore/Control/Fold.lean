import OsintCore.Control.Except

namespace List

variable {α β γ ε : Type}

section Pure

variable {f : β → α → β} {l : List α} {b w : β}

-- No element of the list has an effect.
theorem foldl_skip (h : ∀ a ∈ l, f b a = b) : l.foldl f b = b := by
  induction l
  case nil => rfl
  case cons a l hi =>
    have ⟨ha, hl⟩ := forall_mem_cons.mp h
    rw [foldl_cons, ha, hi hl]

-- One element of the list takes `b` to `w`, and no element takes `b` elsewhere or `w` away.
theorem foldl_hit {a : α} (ha : a ∈ l) (hw : f b a = w) (hb : ∀ a ∈ l, f b a = b ∨ f b a = w)
    (hs : ∀ a ∈ l, f w a = w) : l.foldl f b = w := by
  induction l
  case nil => cases ha
  case cons c l hi =>
    have ⟨hbc, hbl⟩ := forall_mem_cons.mp hb
    have ⟨_, hsl⟩ := forall_mem_cons.mp hs
    rw [foldl_cons]
    by_cases hc : f b c = w
    case pos => rw [hc, foldl_skip hsl]
    case neg =>
      have ha : a ∈ l := mem_of_ne_of_mem (by rintro rfl; exact hc hw) ha
      rw [hbc.resolve_right hc, hi ha hbl hsl]

-- Each element acts like one and the same idempotent function or not at all, and some element does.
theorem foldl_idem {g : β → β} (hg : ∀ b, g (g b) = g b)
    (h : ∀ a ∈ l, (∀ b, f b a = b) ∨ (∀ b, f b a = g b)) (hl : ∃ a ∈ l, ∀ b, f b a = g b) :
    l.foldl f b = g b := by
  have ⟨a, ha, hfa⟩ := hl
  refine foldl_hit ha (hfa b) (fun a ha => (h a ha).imp (· b) (· b)) fun a ha => ?_
  cases h a ha
  case inl h => exact h _
  case inr h => rw [h, hg]

theorem foldl_invariant {P : β → Prop} (hb : P b) (h : ∀ b, ∀ a ∈ l, P b → P (f b a)) :
    P (l.foldl f b) := by
  induction l generalizing b
  case nil => exact hb
  case cons a l hi =>
    have h' := forall_mem_cons.mp (h b) |>.left hb
    exact hi h' fun b a ha => h b a (mem_cons_of_mem _ ha)

theorem foldl_view {v : β → γ} {g : γ → α → γ} (h : ∀ b, ∀ a ∈ l, v (f b a) = g (v b) a) :
    v (l.foldl f b) = l.foldl g (v b) := by
  induction l generalizing b
  case nil => rfl
  case cons a l hi =>
    have hv := forall_mem_cons.mp (h b) |>.left
    simp only [foldl_cons, ← hv]
    exact hi fun b a ha => h b a (mem_cons_of_mem _ ha)

theorem foldl_constant {v : β → γ} (h : ∀ b, ∀ a ∈ l, v (f b a) = v b) : v (l.foldl f b) = v b :=
  foldl_view (g := fun c _ => c) h |>.trans <| foldl_skip fun _ _ => rfl

-- A fold which only changes one component `p` of the state, where `q` writes the component.
theorem foldl_component {p : β → γ} {q : β → γ → β} {u : γ → α → γ} (hp : ∀ b c, p (q b c) = c)
    (hq : ∀ b c c', q (q b c) c' = q b c') (hb : ∀ b, q b (p b) = b) :
    l.foldl (fun b a => q b (u (p b) a)) b = q b (l.foldl u (p b)) := by
  induction l generalizing b
  case nil => exact hb b |>.symm
  case cons a l hi => rw [foldl_cons, hi, hq, hp, foldl_cons]

-- A fold which rewrites a value by one and the same idempotent function, under a condition.
theorem foldl_map_idem {P : α → Prop} [DecidablePred P] {u : α → γ → γ} {g : γ → γ}
    (hg : ∀ c, g (g c) = g c) (hu : ∀ a ∈ l, P a → u a = g) (v : Option γ) :
    l.foldl (fun v a => if P a then v.map (u a) else v) v = if ∃ a ∈ l, P a then v.map g else v := by
  split_ifs with h
  case pos =>
    have ⟨a, ha, hp⟩ := h
    refine foldl_hit ha (by simp [hp, hu a ha hp]) (fun a ha => ?_) (fun a ha => ?_)
    all_goals
      split_ifs with hp
      · simp [hu a ha hp, Function.comp_def, hg]
      · simp
  case neg => exact foldl_skip fun a ha => if_neg fun hp => h ⟨a, ha, hp⟩

end Pure

section Except

variable {f : β → α → Except ε β} {l : List α} {b b' : β}

-- The invariant speaks about the elements which the loop has not reached yet.
theorem foldlM_remaining {I : List α → β → Prop} (h : l.foldlM f b = .ok b') (hb : I l b)
    (hs : ∀ a l b b', I (a :: l) b → f b a = .ok b' → I l b') : I [] b' := by
  induction l generalizing b
  case nil => simp_all
  case cons a l hi =>
    simp only [foldlM_cons, Except.bind_eq_ok] at h
    obtain ⟨c, hc, h⟩ := h
    exact hi h (hs _ _ _ _ hb hc)

theorem foldlM_invariant {P : β → Prop} (h : l.foldlM f b = .ok b') (hb : P b)
    (hs : ∀ b b', ∀ a ∈ l, P b → f b a = .ok b' → P b') : P b' := by
  have ⟨h, _⟩ := foldlM_remaining (I := fun r b => P b ∧ r ⊆ l) h ⟨hb, Subset.refl l⟩
    fun a r b b' ⟨hb, hr⟩ hf =>
      ⟨hs b b' a (hr mem_cons_self) hb hf, fun _ ha => hr (mem_cons_of_mem _ ha)⟩
  exact h

-- If a loop body acts on a view of the state like `g`, then the loop acts on it like a fold of `g`.
theorem foldlM_view {v : β → γ} {g : γ → α → γ} (h : l.foldlM f b = .ok b')
    (hv : ∀ b b', ∀ a ∈ l, f b a = .ok b' → v b' = g (v b) a) : v b' = l.foldl g (v b) := by
  induction l generalizing b
  case nil => simp_all
  case cons a l hi =>
    simp only [foldlM_cons, Except.bind_eq_ok] at h
    obtain ⟨c, hc, h⟩ := h
    rw [hi h fun b b' a ha => hv b b' a (mem_cons_of_mem _ ha), hv b c a mem_cons_self hc, foldl_cons]

theorem foldlM_constant {v : β → γ} (h : l.foldlM f b = .ok b')
    (hv : ∀ b b', ∀ a ∈ l, f b a = .ok b' → v b' = v b) : v b' = v b :=
  foldlM_view (g := fun c _ => c) h hv |>.trans <| foldl_skip fun _ _ => rfl

-- A loop does not fail with an error which none of its steps fails with.
theorem foldlM_never {P : ε → Prop} {I : List α → β → Prop} (hb : I l b)
    (hn : ∀ a l b, I (a :: l) b → (f b a).Never P)
    (hs : ∀ a l b b', I (a :: l) b → f b a = .ok b' → I l b') : (l.foldlM f b).Never P := by
  induction l generalizing b
  case nil => exact .ok
  case cons a l hi =>
    rw [foldlM_cons]
    exact (hn a l b hb).bind fun c hc => hi (hs a l b c hb hc)

-- A loop succeeds if each of its steps does.
theorem foldlM_progress {I : List α → β → Prop} (hb : I l b)
    (hs : ∀ a l b, I (a :: l) b → ∃ b', f b a = .ok b' ∧ I l b') :
    ∃ b', l.foldlM f b = .ok b' ∧ I [] b' := by
  induction l generalizing b
  case nil => exact ⟨b, rfl, hb⟩
  case cons a l hi =>
    have ⟨c, hc, h⟩ := hs _ _ _ hb
    have ⟨b', hb', h⟩ := hi h
    exact ⟨b', by simp [hc, hb'], h⟩

end Except

section Option

variable {l l' : List α} {f : α → Option β} {d : Option β}

-- The first value counts.
theorem foldl_or : l.foldl (fun d a => d.or (f a)) d = d.or (l.findSome? f) := by
  induction l generalizing d
  case nil => exact Option.or_none.symm
  case cons a l hi =>
    rw [foldl_cons, hi, findSome?_cons, Option.or_assoc]
    cases f a <;> rfl

-- The last value counts.
theorem foldl_or_swap : l.foldl (fun d a => (f a).or d) d = (l.reverse.findSome? f).or d := by
  induction l generalizing d
  case nil => rfl
  case cons a l hi =>
    rw [foldl_cons, hi, reverse_cons, findSome?_append, Option.or_assoc]
    cases h : f a <;> simp [h]

-- The order does not matter if there is one value at most.
theorem Perm.findSome?_eq (hp : l.Perm l') (h : ∀ a ∈ l, ∀ b ∈ l, ∀ x ∈ f a, ∀ y ∈ f b, x = y) :
    l.findSome? f = l'.findSome? f := by
  have ho (l : List α) : l.findSome? f = l.foldl (fun d a => d.or (f a)) none := by
    rw [foldl_or, Option.none_or]
  rw [ho, ho]
  refine hp.foldl_eq' (fun a ha b hb d => ?_) none
  have h := h a ha b hb
  cases d <;> cases ha : f a <;> cases hb : f b <;> simp_all

theorem mapM_perm {r r' : List β} (h : l.mapM f = some r) (h' : l'.mapM f = some r')
    (hp : l'.Perm l) : r'.Perm r := by
  obtain ⟨s, hs, hr⟩ := perm_comp_forall₂ hp (Option.mapM_eq_some.mp h)
  cases h'.symm.trans (Option.mapM_eq_some.mpr hs)
  exact hr

end Option

section Count

variable {l : List α} {i : Nat} {a b : α}

-- One element is replaced.
theorem countP_set_add (p : α → Bool) (hi : l[i]? = some a) :
    (l.set i b).countP p + (if p a then 1 else 0) = l.countP p + if p b then 1 else 0 := by
  have ⟨hl, ha⟩ := getElem?_eq_some_iff.mp hi
  have hp : (if p a then 1 else 0) ≤ l.countP p := by
    split_ifs with h
    case pos => exact countP_pos_iff.mpr ⟨a, ha ▸ getElem_mem hl, h⟩
    case neg => exact Nat.zero_le _
  simp only [countP_set hl, ha]
  split_ifs at hp ⊢ <;> omega

end Count

end List
