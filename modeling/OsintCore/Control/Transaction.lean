import OsintCore.Control.Fault
import OsintCore.Control.RelyGuarantee

namespace Resumption

variable {σ φ ε ε' α β : Type} {R G : σ → σ → Prop} {Q : α → σ → Prop} {E : ε → σ → Prop}
variable {x : Resumption σ ε α} {s : σ}

-- An access which does all it does at once, or fails and does nothing.
def transact (f : σ → Except ε (α × σ)) : Resumption σ ε α :=
  .step (fun s => match f s with
    | .ok (_, s') => s'
    | .error _    => s) fun s => .ofExcept ((f s).map (·.fst))

theorem run_transact {f : σ → Except ε (α × σ)} : (transact f).run s =
    match f s with
    | .ok (a, s') => (.ok a, s')
    | .error e    => (.error e, s) := by
  rcases hf : f s with e | ⟨a, s'⟩ <;> simp [transact, run, hf, Except.map, ofExcept]

theorem ensures_transact {f : σ → Except ε (α × σ)} : (transact f).Ensures s Q E ↔
    (∀ a s', f s = .ok (a, s') → Q a s') ∧ ∀ e, f s = .error e → E e s := by
  rw [Ensures, run_transact]
  rcases hf : f s with e | ⟨a, s'⟩ <;> simp

theorem respects_transact {f : σ → Except ε (α × σ)} (hg : ∀ s, G s s)
    (h : ∀ s' a t, R s s' → f s' = .ok (a, t) → G s' t ∧ ∀ t', R t t' → Q a t') :
    (transact f).Respects R G Q s := by
  intro s' hs
  cases hf : f s'
  case error e => exact ⟨by simpa [hf] using hg s', by simp [hf, Except.map, ofExcept]⟩
  case ok r =>
    have hr := h s' r.fst r.snd hs hf
    simp only [hf, Except.map, ofExcept]
    exact hr

section OfExcept

variable {r : Except ε α} {f : α → Resumption σ ε β} {Q' : β → σ → Prop}

theorem respects_ofExcept (h : ∀ a, r = .ok a → ∀ s', R s s' → Q a s') :
    (ofExcept r : Resumption σ ε α).Respects R G Q s := by
  cases r
  case error => trivial
  case ok a  => exact h a rfl

theorem respects_ofExcept_bind (h : ∀ a, r = .ok a → (f a).Respects R G Q' s) :
    (ofExcept r >>= f).Respects R G Q' s := by
  cases r
  case error => trivial
  case ok a  => exact h a rfl

theorem ensures_ofExcept_bind : (ofExcept r >>= f).Ensures s Q' (fun _ _ => True) ↔
    ∀ a, r = .ok a → (f a).Ensures s Q' fun _ _ => True := by
  simp

end OfExcept

theorem Respects.outcome (hx : x.Respects R G Q s) :
    (x.outcome : Resumption σ ε' (Except ε α)).Respects R G (fun _ _ => True) s := by
  induction x generalizing s
  case done               => exact fun _ _ => trivial
  case fail               => exact fun _ _ => trivial
  case step write next hi => exact fun s' hs => ⟨(hx s' hs).left, hi s' (hx s' hs).right⟩

-- A program whose accesses may fail keeps its word, too.
theorem Respects.faulty {f : Faulty σ φ} (hg : ∀ s, G s s) (hx : x.Respects R G Q f.state) :
    (x.faulty : Resumption (Faulty σ φ) (φ ⊕ ε) α).Respects (fun f f' => R f.state f'.state)
      (fun f f' => G f.state f'.state) (fun a f => Q a f.state) f := by
  induction x generalizing f
  case done               => exact fun f' hf => hx f'.state hf
  case fail               => trivial
  case step write next hi =>
    rw [Resumption.faulty]
    intro f' hf
    obtain ⟨hw, hn⟩ := hx f'.state hf
    refine ⟨?access, ?rest⟩
    case access =>
      change G f'.state (f'.access write).state
      unfold Faulty.access
      split
      case h_1 => exact hg _
      case h_2 => exact hw
    case rest =>
      dsimp only
      split
      case h_2 => trivial
      case h_1 hp =>
        refine hi _ ?_
        have ha : (f'.access write).state = write f'.state := by
          rw [Faulty.access, Faulty.next, hp]
        rwa [ha]

theorem Respects.ensures_faulty (hr : ∀ s, R s s) (hg : ∀ s, G s s)
    (ht : ∀ {a b c}, G a b → G b c → G a c) (hx : x.Respects R G Q s) (plan : Nat → Option (Fault φ)) :
    (x.faulty : Resumption (Faulty σ φ) (φ ⊕ ε) α).Ensures ⟨s, plan⟩
      (fun a f => G s f.state ∧ Q a f.state) fun _ f => G s f.state := by
  have h : (x.faulty : Resumption (Faulty σ φ) (φ ⊕ ε) α).Respects (fun f f' => R f.state f'.state)
      (fun f f' => G f.state f'.state) (fun a f => Q a f.state) ⟨s, plan⟩ := hx.faulty hg
  refine h.ensures ?_ ?_ fun h h' => ?_
  case refine_1 => exact fun _ => hr _
  case refine_2 => exact fun _ => hg _
  case refine_3 => exact ht h h'

end Resumption
