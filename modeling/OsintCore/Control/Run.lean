import Mathlib

namespace List

variable {α β : Type} {f : β → α → β} {b : β} {C D : β → α → Prop}

-- Each step of the run `l` from `b` starts in a state which meets the step's condition.
def Along (f : β → α → β) (C : β → α → Prop) : β → List α → Prop
  | _, []     => True
  | b, a :: l => C b a ∧ Along f C (f b a) l

instance [∀ b a, Decidable (C b a)] : ∀ b l, Decidable (Along f C b l)
  | _, []     => .isTrue trivial
  | b, a :: l => have := instDecidableAlong (f b a) l; inferInstanceAs (Decidable (_ ∧ _))

@[simp]
theorem along_nil : Along f C b [] :=
  trivial

@[simp]
theorem along_cons {a : α} {l : List α} : Along f C b (a :: l) ↔ C b a ∧ Along f C (f b a) l :=
  .rfl

-- A step which meets its condition keeps the invariant, and does what it should.
theorem Along.invariant {P : β → Prop} {l : List α} (h : Along f C b l) (hb : P b)
    (hs : ∀ b a, P b → C b a → P (f b a) ∧ D b a) : P (l.foldl f b) ∧ Along f D b l := by
  induction l generalizing b
  case nil => exact ⟨hb, trivial⟩
  case cons a l hi =>
    have ⟨hb', hc'⟩ := hs b a hb h.left
    have ⟨hl, hl'⟩ := hi h.right hb'
    exact ⟨hl, hc', hl'⟩

theorem Along.foldl {P : β → Prop} {l : List α} (h : Along f C b l) (hb : P b)
    (hs : ∀ b a, P b → C b a → P (f b a)) : P (l.foldl f b) :=
  h.invariant (D := fun _ _ => True) hb (fun b a hp hc => ⟨hs b a hp hc, trivial⟩) |>.left

theorem Along.mono {l : List α} (h : Along f C b l) (hc : ∀ b a, C b a → D b a) : Along f D b l := by
  induction l generalizing b
  case nil => trivial
  case cons a l hi => exact ⟨hc b a h.left, hi h.right⟩

theorem Along.and_mem {p : α → Prop} {l : List α} (h : Along f C b l) (hp : ∀ a ∈ l, p a) :
    Along f (fun b a => C b a ∧ p a) b l := by
  induction l generalizing b
  case nil => trivial
  case cons a l hi =>
    exact ⟨⟨h.left, hp a mem_cons_self⟩, hi h.right fun a ha => hp a (mem_cons_of_mem _ ha)⟩

theorem along_append {l l' : List α} :
    Along f C b (l ++ l') ↔ Along f C b l ∧ Along f C (l.foldl f b) l' := by
  induction l generalizing b
  case nil => simp
  case cons a l hi => simp [hi, and_assoc]

theorem Along.take {l l' : List α} (h : Along f C b l) (hp : l' <+: l) : Along f C b l' := by
  obtain ⟨l'', rfl⟩ := hp
  exact (along_append.mp h).left

end List
