import Mathlib

variable {α β ι κ : Type}

-- A lookup by a condition which at most one element meets.
theorem List.find?_eq_some_of_unique {l : List α} {p : α → Bool} {a : α}
    (h : ∀ a ∈ l, ∀ b ∈ l, p a → p b → a = b) : l.find? p = some a ↔ a ∈ l ∧ p a := by
  constructor
  case mp  => exact fun ha => ⟨mem_of_find?_eq_some ha, find?_some ha⟩
  case mpr =>
    intro ⟨hm, hp⟩
    have ⟨b, hb⟩ : ∃ b, l.find? p = some b :=
      Option.isSome_iff_exists.mp <| find?_isSome.mpr ⟨a, hm, hp⟩
    rw [hb, h b (mem_of_find?_eq_some hb) a hm (find?_some hb) hp]

-- A type of rows, each of which carries its own primary key.
class Keyed (α : Type) (ι : outParam Type) where
  key : α → ι

open Keyed (key)

-- A table holds at most one row per primary key. Its rows are listed in key order, so that a table
-- is determined by the rows it holds.
structure Table (α : Type) {ι : Type} [LinearOrder ι] [Keyed α ι] where
  rows   : List α
  sorted : rows.Pairwise (key · < key ·)

namespace Table

variable [LinearOrder ι] [Keyed α ι] [Keyed β ι]

instance : Membership α (Table α) where
  mem t a := a ∈ t.rows

theorem mem_def {t : Table α} {a : α} : a ∈ t ↔ a ∈ t.rows :=
  .rfl

instance : EmptyCollection (Table α) where
  emptyCollection := { rows := [], sorted := .nil }

instance : Inhabited (Table α) where
  default := ∅

@[simp]
theorem not_mem_empty {a : α} : a ∉ (∅ : Table α) :=
  List.not_mem_nil

theorem eq_of_key_eq {t : Table α} {a b : α} (ha : a ∈ t) (hb : b ∈ t) (h : key a = key b) :
    a = b := by
  refine t.sorted.imp (S := fun a b => key a = key b → a = b) ?lt
    |>.forall_of_forall_of_flip (fun _ _ _ => rfl) (t.sorted.imp ?gt) ha hb h
  case lt => exact fun h e => absurd e (ne_of_lt h)
  case gt => exact fun h e => absurd e (ne_of_gt h)

theorem nodup (t : Table α) : t.rows.Nodup :=
  t.sorted.imp fun h e => absurd (e ▸ h) (lt_irrefl _)

theorem ext_mem {t₁ t₂ : Table α} (h : ∀ a, a ∈ t₁ ↔ a ∈ t₂) : t₁ = t₂ := by
  have hp : t₁.rows.Perm t₂.rows :=
    List.perm_ext_iff_of_nodup t₁.nodup t₂.nodup |>.mpr h
  have he : t₁.rows = t₂.rows :=
    hp.eq_of_pairwise (fun _ _ _ _ h₁ h₂ => absurd h₁ (lt_asymm h₂)) t₁.sorted t₂.sorted
  cases t₁; cases t₂; simp_all

def get? (t : Table α) (i : ι) : Option α :=
  t.rows.find? (key · = i)

theorem get?_eq_some {t : Table α} {i : ι} {a : α} : t.get? i = some a ↔ a ∈ t ∧ key a = i := by
  constructor
  case mp =>
    intro h
    exact ⟨List.mem_of_find?_eq_some h, by simpa using List.find?_some h⟩
  case mpr =>
    intro ⟨hm, hk⟩
    cases h : t.get? i
    case none =>
      have := List.find?_eq_none.mp h a hm
      simp [hk] at this
    case some b =>
      have hb : key b = i := by simpa using List.find?_some h
      rw [eq_of_key_eq (List.mem_of_find?_eq_some h) hm (hb.trans hk.symm)]

theorem mem_iff_get? {t : Table α} {a : α} : a ∈ t ↔ t.get? (key a) = some a := by
  simp [get?_eq_some]

theorem get?_mem {t : Table α} {i : ι} {a : α} (h : t.get? i = some a) : a ∈ t :=
  get?_eq_some.mp h |>.left

theorem get?_key {t : Table α} {i : ι} {a : α} (h : t.get? i = some a) : key a = i :=
  get?_eq_some.mp h |>.right

theorem get?_eq_none {t : Table α} {i : ι} : t.get? i = none ↔ ∀ a ∈ t, key a ≠ i := by
  simp [get?, mem_def]

theorem isSome_get? {t : Table α} {i : ι} : (t.get? i).isSome ↔ ∃ a ∈ t, key a = i := by
  simp [Option.isSome_iff_exists, get?_eq_some]

@[simp]
theorem get?_empty (i : ι) : (∅ : Table α).get? i = none :=
  rfl

theorem find?_eq_some {t : Table α} {p : α → Bool} {a : α}
    (h : ∀ a ∈ t, ∀ b ∈ t, p a → p b → a = b) : t.rows.find? p = some a ↔ a ∈ t ∧ p a :=
  List.find?_eq_some_of_unique h

theorem find?_eq_none {t : Table α} {p : α → Bool} : t.rows.find? p = none ↔ ∀ a ∈ t, ¬p a :=
  List.find?_eq_none

@[ext]
theorem ext {t₁ t₂ : Table α} (h : ∀ i, t₁.get? i = t₂.get? i) : t₁ = t₂ :=
  ext_mem fun a => by simp [mem_iff_get?, h]

-- Upsert: a row with the same key is replaced.
def insertRow (a : α) : List α → List α
  | []     => [a]
  | b :: l => if key a < key b then a :: b :: l else if key a = key b then a :: l else b :: insertRow a l

theorem mem_insertRow {a b : α} {l : List α} (hl : l.Pairwise (key · < key ·)) :
    b ∈ insertRow a l ↔ b = a ∨ (b ∈ l ∧ key b ≠ key a) := by
  induction l
  case nil => simp [insertRow]
  case cons c l hi =>
    have ⟨hc, hl⟩ := List.pairwise_cons.mp hl
    simp only [insertRow]
    split_ifs with h₁ h₂
    all_goals simp only [List.mem_cons, hi hl]
    · have : ∀ d ∈ l, key d ≠ key a := fun d hd => ne_of_gt (h₁.trans (hc d hd))
      have := ne_of_gt h₁
      grind
    · have : ∀ d ∈ l, key d ≠ key a := fun d hd => ne_of_gt (h₂ ▸ hc d hd)
      grind
    · grind

theorem insertRow_sorted {a : α} {l : List α} (hl : l.Pairwise (key · < key ·)) :
    (insertRow a l).Pairwise (key · < key ·) := by
  induction l
  case nil => simp [insertRow]
  case cons c l hi =>
    have ⟨hc, hl'⟩ := List.pairwise_cons.mp hl
    simp only [insertRow]
    split_ifs with h₁ h₂
    · exact .cons (List.forall_mem_cons.mpr ⟨h₁, fun d hd => h₁.trans (hc d hd)⟩) hl
    · exact .cons (fun d hd => h₂ ▸ hc d hd) hl'
    · refine .cons (fun d hd => ?_) (hi hl')
      cases mem_insertRow hl' |>.mp hd
      case inl h => exact h ▸ lt_of_le_of_ne (not_lt.mp h₁) (Ne.symm h₂)
      case inr h => exact hc d h.left

def put (t : Table α) (a : α) : Table α where
  rows   := insertRow a t.rows
  sorted := insertRow_sorted t.sorted

theorem mem_put {t : Table α} {a b : α} : b ∈ t.put a ↔ b = a ∨ (b ∈ t ∧ key b ≠ key a) :=
  mem_insertRow t.sorted

@[simp]
theorem get?_put [DecidableEq ι] (t : Table α) (a : α) (i : ι) :
    (t.put a).get? i = if key a = i then some a else t.get? i := by
  ext b
  simp only [get?_eq_some, mem_put]
  split_ifs with h
  · simp only [Option.some.injEq]; grind
  · rw [get?_eq_some]; grind

theorem mem_put_self (t : Table α) (a : α) : a ∈ t.put a :=
  mem_put.mpr (.inl rfl)

-- Of two writes under one key, the second one counts.
theorem put_put {t : Table α} {a b : α} (h : key a = key b) : (t.put a).put b = t.put b :=
  ext_mem fun c => by
    simp only [mem_put]
    constructor
    · rintro (rfl | ⟨rfl | ⟨hc, _⟩, hn⟩)
      · exact .inl rfl
      · exact absurd h hn
      · exact .inr ⟨hc, hn⟩
    · rintro (rfl | ⟨hc, hn⟩)
      · exact .inl rfl
      · exact .inr ⟨.inr ⟨hc, h ▸ hn⟩, hn⟩

def filter (t : Table α) (p : α → Bool) : Table α where
  rows   := t.rows.filter p
  sorted := t.sorted.filter p

@[simp]
theorem mem_filter {t : Table α} {p : α → Bool} {a : α} : a ∈ t.filter p ↔ a ∈ t ∧ p a := by
  simp [mem_def, filter]

@[simp]
theorem get?_filter (t : Table α) (p : α → Bool) (i : ι) :
    (t.filter p).get? i = (t.get? i).filter p := by
  ext b
  simp [get?_eq_some, Option.filter_eq_some_iff]
  tauto

def erase (t : Table α) (i : ι) : Table α :=
  t.filter (key · ≠ i)

@[simp]
theorem mem_erase {t : Table α} {i : ι} {a : α} : a ∈ t.erase i ↔ a ∈ t ∧ key a ≠ i := by
  simp [erase]

@[simp]
theorem get?_erase [DecidableEq ι] (t : Table α) (i j : ι) :
    (t.erase i).get? j = if i = j then none else t.get? j := by
  ext b
  simp only [get?_eq_some, mem_erase]
  split_ifs with h
  · simp only [iff_false]; grind
  · rw [get?_eq_some]; grind

end Table
