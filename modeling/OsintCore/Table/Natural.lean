import OsintCore.Table.Constraints

-- Tables whose rows have a natural key besides the primary key, and whose primary keys may be
-- derived from the natural one.
namespace Table

open Keyed (key)

variable {α ι κ : Type} [LinearOrder ι] [Keyed α ι] [DecidableEq κ]

-- The row with a given natural key.
def owner (t : Table α) (k : α → κ) (x : κ) : Option α :=
  t.rows.find? (k · = x)

-- Natural keys are unique, and a row whose primary key has been derived for a natural key has this
-- natural key.
structure Named (t : Table α) (k : α → κ) (derived : κ → ι → Prop) : Prop where
  unique  : t.Unique (some <| k ·)
  derived : ∀ a ∈ t, ∀ x, derived x (key a) → k a = x

-- The row takes the place of the one which has its natural key, or is put under a primary key which
-- has been derived for it.
def Fits (t : Table α) (k : α → κ) (derived : κ → ι → Prop) (a : α) : Prop :=
  match t.owner k (k a) with
  | some b => key a = key b
  | none   => derived (k a) (key a)

-- The row is put unless its natural key has an owner.
def putNew (t : Table α) (k : α → κ) (a : α) : Table α :=
  if (t.owner k (k a)).isSome then t else t.put a

variable {t t' : Table α} {k : α → κ} {derived : κ → ι → Prop} {a b : α} {x : κ}

theorem owner_eq_none : t.owner k x = none ↔ ∀ a ∈ t, k a ≠ x := by
  rw [owner, find?_eq_none]
  simp

theorem Unique.owner_eq_some (h : t.Unique (some <| k ·)) :
    t.owner k x = some a ↔ a ∈ t ∧ k a = x := by
  rw [owner, find?_eq_some fun a ha b hb hpa hpb => ?_]
  case _ => simp
  simp only [decide_eq_true_eq] at hpa hpb
  exact h.eq ha hb (congrArg some hpa) (congrArg some hpb)

namespace Named

theorem owner_eq_some (h : t.Named k derived) : t.owner k x = some a ↔ a ∈ t ∧ k a = x :=
  h.unique.owner_eq_some

theorem owner_self (h : t.Named k derived) (ha : a ∈ t) : t.owner k (k a) = some a :=
  h.owner_eq_some.mpr ⟨ha, rfl⟩

theorem mem_of_owner (h : t.Named k derived) (ha : t.owner k x = some a) : a ∈ t :=
  (h.owner_eq_some.mp ha).left

-- The tables are told apart by the owners of the natural keys.
theorem ext_owner (h : t.Named k derived) (h' : t'.Named k derived)
    (ho : ∀ x, t.owner k x = t'.owner k x) : t = t' :=
  ext_mem fun a =>
    ⟨fun ha => h'.mem_of_owner <| ho (k a) ▸ h.owner_self ha,
      fun ha => h.mem_of_owner <| ho (k a) ▸ h'.owner_self ha⟩

-- Tables whose owners look the same have rows which look the same.
theorem map_get? {β : Type} {f : α → β} (h : t.Named k derived) (h' : t'.Named k derived)
    (hf : ∀ a b, f a = f b → key a = key b)
    (ho : ∀ x, (t.owner k x).map f = (t'.owner k x).map f) (i : ι) :
    (t.get? i).map f = (t'.get? i).map f := by
  have hm {t t' : Table α} (h : t.Named k derived) (h' : t'.Named k derived)
      (ho : ∀ x, (t.owner k x).map f = (t'.owner k x).map f) {a : α} (ha : t.get? i = some a) :
      (t'.get? i).map f = some (f a) := by
    obtain ⟨ham, hai⟩ := get?_eq_some.mp ha
    have ho := ho (k a)
    rw [h.owner_self ham, Option.map_some] at ho
    obtain ⟨b, hb, hfb⟩ := Option.map_eq_some_iff.mp ho.symm
    have hbi : t'.get? i = some b :=
      get?_eq_some.mpr ⟨h'.mem_of_owner hb, (hf b a hfb).trans hai⟩
    rw [hbi, Option.map_some, hfb]
  cases ha : t.get? i
  case some a => rw [hm h h' ho ha, Option.map_some]
  case none   =>
    cases hb : t'.get? i
    case none   => rfl
    case some b => simpa [ha] using hm h' h (fun x => (ho x).symm) hb

-- No row with another natural key is in the way.
theorem key_ne (h : t.Named k derived) (hf : t.Fits k derived a) (hb : b ∈ t) (hk : k b ≠ k a) :
    key b ≠ key a := by
  intro hi
  unfold Fits at hf
  cases ho : t.owner k (k a) <;> simp only [ho] at hf
  case none   => exact hk <| h.derived b hb _ (hi ▸ hf)
  case some c =>
    obtain ⟨hc, hkc⟩ := h.owner_eq_some.mp ho
    exact hk <| hkc ▸ congrArg k (eq_of_key_eq hb hc (hi.trans hf))

theorem admits (h : t.Named k derived) (hf : t.Fits k derived a) :
    t.Admits (some <| k ·) a := by
  intro b hb hn _ he
  have hk : k b = k a := Option.some.inj he
  unfold Fits at hf
  rw [← hk, h.owner_self hb] at hf
  exact hn hf.symm

theorem owner_put (h : t.Named k derived) (hf : t.Fits k derived a) :
    (t.put a).owner k x = if k a = x then some a else t.owner k x := by
  apply Option.ext
  intro b
  rw [(h.unique.put (h.admits hf)).owner_eq_some, mem_put]
  split_ifs with hx
  case pos =>
    subst hx
    constructor
    case mp =>
      rintro ⟨rfl | ⟨hb, hn⟩, hk⟩
      case inl => rfl
      case inr => exact absurd (congrArg some hk) (h.admits hf b hb hn rfl)
    case mpr => exact fun he => ⟨.inl (Option.some.inj he).symm, by rw [Option.some.inj he]⟩
  case neg =>
    rw [h.owner_eq_some]
    constructor
    case mp =>
      rintro ⟨rfl | ⟨hb, _⟩, hk⟩
      case inl => exact absurd hk hx
      case inr => exact ⟨hb, hk⟩
    case mpr =>
      rintro ⟨hb, hk⟩
      exact ⟨.inr ⟨hb, h.key_ne hf hb (hk ▸ Ne.symm hx)⟩, hk⟩

theorem put (h : t.Named k derived) (hf : t.Fits k derived a)
    (hd : ∀ x y i, derived x i → derived y i → x = y) : (t.put a).Named k derived where
  unique  := h.unique.put (h.admits hf)
  derived := by
    intro b hb x hx
    obtain rfl | ⟨hb, _⟩ := mem_put.mp hb
    case inr => exact h.derived b hb x hx
    case inl =>
      unfold Fits at hf
      cases ho : t.owner k (k b) <;> simp only [ho] at hf
      case none   => exact hd _ _ _ hf hx
      case some c =>
        obtain ⟨hc, hkc⟩ := h.owner_eq_some.mp ho
        exact hkc ▸ h.derived c hc x (hf ▸ hx)

theorem owner_putNew (h : t.Named k derived) (ha : derived (k a) (key a)) :
    (t.putNew k a).owner k x =
      if k a = x then (t.owner k x).or (some a) else t.owner k x := by
  unfold putNew
  cases ho : t.owner k (k a)
  case some b =>
    rw [if_pos (by simp)]
    split_ifs with hx
    case pos => rw [← hx, ho, Option.some_or]
    case neg => rfl
  case none =>
    rw [if_neg (by simp), h.owner_put (by simpa [Fits, ho] using ha)]
    split_ifs with hx
    case pos => rw [← hx, ho, Option.none_or]
    case neg => rfl

theorem putNew (h : t.Named k derived) (ha : derived (k a) (key a))
    (hd : ∀ x y i, derived x i → derived y i → x = y) : (t.putNew k a).Named k derived := by
  unfold Table.putNew
  split_ifs with ho
  case pos => exact h
  case neg =>
    have ho : t.owner k (k a) = none := by simpa using ho
    exact h.put (by simpa [Fits, ho] using ha) hd

end Named

end Table
