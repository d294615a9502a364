import OsintCore.Table.Basic

open Keyed (key)

namespace Table

variable {α β ι ι' κ : Type} [LinearOrder ι] [Keyed α ι] [LinearOrder ι'] [Keyed β ι']

section Unique

-- A (partial) unique index: rows which the index covers (`k a ≠ none`) differ in it.
def Unique (t : Table α) (k : α → Option κ) : Prop :=
  ∀ a ∈ t.rows, ∀ b ∈ t.rows, (k a).isSome → k a = k b → key a = key b

-- Writing `a` does not violate the index: no row under another key has the same entry.
def Admits (t : Table α) (k : α → Option κ) (a : α) : Prop :=
  ∀ b ∈ t.rows, key b ≠ key a → (k a).isSome → k b ≠ k a

instance [DecidableEq κ] {t : Table α} {k : α → Option κ} : Decidable (t.Unique k) :=
  inferInstanceAs (Decidable (∀ a ∈ t.rows, ∀ b ∈ t.rows, (k a).isSome → k a = k b → key a = key b))

instance [DecidableEq κ] {t : Table α} {k : α → Option κ} {a : α} : Decidable (t.Admits k a) :=
  inferInstanceAs (Decidable (∀ b ∈ t.rows, key b ≠ key a → (k a).isSome → k b ≠ k a))

variable {t : Table α} {k : α → Option κ}

theorem Unique.empty : (∅ : Table α).Unique k := by
  intro _ h; cases h

theorem Unique.key_eq (hu : t.Unique k) {a b : α} {x : κ} (ha : a ∈ t) (hb : b ∈ t)
    (hka : k a = some x) (hkb : k b = some x) : key a = key b :=
  hu a ha b hb (by simp [hka]) (hka.trans hkb.symm)

theorem Unique.eq (hu : t.Unique k) {a b : α} {x : κ} (ha : a ∈ t) (hb : b ∈ t)
    (hka : k a = some x) (hkb : k b = some x) : a = b :=
  eq_of_key_eq ha hb <| hu.key_eq ha hb hka hkb

theorem Unique.put {a : α} (hu : t.Unique k) (ha : t.Admits k a) : (t.put a).Unique k := by
  intro b hb c hc hs he
  cases mem_put.mp hb <;> cases mem_put.mp hc
  case inl.inl h h'  => rw [h, h']
  case inl.inr h h'  => subst h; exact absurd he.symm <| ha c h'.left h'.right hs
  case inr.inl h h'  => subst h'; exact absurd he <| ha b h.left h.right (he ▸ hs)
  case inr.inr h h'  => exact hu b h.left c h'.left hs he

theorem Unique.filter {p : α → Bool} (hu : t.Unique k) : (t.filter p).Unique k :=
  fun a ha b hb => hu a (mem_filter.mp ha).left b (mem_filter.mp hb).left

theorem Unique.erase {i : ι} (hu : t.Unique k) : (t.erase i).Unique k :=
  hu.filter

-- A row may be rewritten in place as long as its index entry stays as it is.
theorem Unique.admits (hu : t.Unique k) {a b : α} (hb : b ∈ t) (hk : key b = key a)
    (he : k b = k a) : t.Admits k a := by
  intro c hc hn hs h
  exact hn <| hk ▸ hu c hc b hb (h ▸ hs) (h.trans he.symm)

end Unique

section References

-- A foreign key: every reference `f a` which a row of `t` holds is the key of a row of `u`.
def References (t : Table α) (f : α → Option ι') (u : Table β) : Prop :=
  ∀ a ∈ t.rows, ∀ i ∈ f a, (u.get? i).isSome

instance {t : Table α} {f : α → Option ι'} {u : Table β} : Decidable (t.References f u) :=
  inferInstanceAs (Decidable (∀ a ∈ t.rows, ∀ i ∈ f a, (u.get? i).isSome))

variable {t : Table α} {f : α → Option ι'} {u u' : Table β}

theorem References.empty : (∅ : Table α).References f u := by
  intro _ h; cases h

theorem References.put {a : α} (hr : t.References f u) (ha : ∀ i ∈ f a, (u.get? i).isSome) :
    (t.put a).References f u := by
  intro b hb
  cases mem_put.mp hb
  case inl h => exact h ▸ ha
  case inr h => exact hr b h.left

theorem References.filter {p : α → Bool} (hr : t.References f u) : (t.filter p).References f u :=
  fun a ha => hr a (mem_filter.mp ha).left

theorem References.mono (hr : t.References f u) (h : ∀ i, (u.get? i).isSome → (u'.get? i).isSome) :
    t.References f u' :=
  fun a ha i hi => h i <| hr a ha i hi

theorem isSome_get?_put {b : β} {i : ι'} (h : (u.get? i).isSome) : ((u.put b).get? i).isSome := by
  rw [get?_put]; split_ifs <;> simp_all

theorem References.put_right {b : β} (hr : t.References f u) : t.References f (u.put b) :=
  hr.mono fun _ => isSome_get?_put

end References

end Table
