import OsintCore.Control.Interleaving

namespace Resumption

variable {σ ε ε' α β : Type} {R G : σ → σ → Prop} {Q Q' : α → σ → Prop} {s s' : σ}

-- While the others take steps of `R`, the program takes steps of `G` only, and `Q` holds of what it
-- returns from then on.
def Respects (R G : σ → σ → Prop) (Q : α → σ → Prop) : Resumption σ ε α → σ → Prop
  | done a, s          => ∀ s', R s s' → Q a s'
  | fail _, _          => True
  | step write next, s => ∀ s', R s s' → G s' (write s') ∧ (next s').Respects R G Q (write s')

@[simp]
theorem respects_fail {e : ε} : (fail e : Resumption σ ε α).Respects R G Q s :=
  trivial

theorem respects_pure {a : α} (h : ∀ s', R s s' → Q a s') :
    (pure a : Resumption σ ε α).Respects R G Q s :=
  h

theorem respects_read {f : σ → α} (hg : ∀ s', R s s' → G s' s')
    (h : ∀ s' s'', R s s' → R s' s'' → Q (f s') s'') :
    (read f : Resumption σ ε α).Respects R G Q s :=
  fun s' hs => ⟨hg s' hs, fun s'' hs' => h s' s'' hs hs'⟩

theorem respects_attempt {f : σ → Except ε' σ} {Q : Except ε' Unit → σ → Prop}
    (ho : ∀ s' t, R s s' → f s' = .ok t → G s' t ∧ ∀ t', R t t' → Q (.ok ()) t')
    (he : ∀ s' e, R s s' → f s' = .error e → G s' s' ∧ ∀ t', R s' t' → Q (.error e) t') :
    (attempt f : Resumption σ ε _).Respects R G Q s := by
  intro s' hs
  cases hf : f s'
  case ok t    => simpa [hf, Except.toOption, Except.map, Respects] using ho s' t hs hf
  case error e => simpa [hf, Except.toOption, Except.map, Respects] using he s' e hs hf

theorem Respects.bind {x : Resumption σ ε β} {f : β → Resumption σ ε α} {P : β → σ → Prop}
    (hr : ∀ s, R s s) (hx : x.Respects R G P s) (hf : ∀ b s, P b s → (f b).Respects R G Q s) :
    (x >>= f).Respects R G Q s := by
  induction x generalizing s
  case done b             => exact hf b s <| hx s (hr s)
  case fail               => trivial
  case step write next hi =>
    intro s' hs
    have ⟨hw, hn⟩ := hx s' hs
    exact ⟨hw, hi s' hn⟩

variable {x : Resumption σ ε α}

theorem Respects.mono (hx : x.Respects R G Q s) (h : ∀ a s, Q a s → Q' a s) :
    x.Respects R G Q' s := by
  induction x generalizing s
  case done a             => exact fun s' hs => h a s' <| hx s' hs
  case fail               => trivial
  case step write next hi => exact fun s' hs => ⟨(hx s' hs).left, hi s' (hx s' hs).right⟩

theorem Respects.rely (ht : ∀ {a b c}, R a b → R b c → R a c) (hx : x.Respects R G Q s)
    (hs : R s s') : x.Respects R G Q s' := by
  cases x
  case done => exact fun t h => hx t (ht hs h)
  case fail => trivial
  case step => exact fun t h => hx t (ht hs h)

theorem Respects.advance (hr : ∀ s, R s s) (hg : ∀ s, G s s) (hx : x.Respects R G Q s) :
    G s (x.advance s).fst ∧ (x.advance s).snd.Respects R G Q (x.advance s).fst := by
  cases x
  case done => exact ⟨hg s, hx⟩
  case fail => exact ⟨hg s, hx⟩
  case step => exact hx s (hr s)

-- On its own, the program makes all of its steps in a row.
theorem Respects.ensures (hr : ∀ s, R s s) (hg : ∀ s, G s s)
    (ht : ∀ {a b c}, G a b → G b c → G a c) (hx : x.Respects R G Q s) :
    x.Ensures s (fun a s' => G s s' ∧ Q a s') fun _ s' => G s s' := by
  induction x generalizing s
  case done               => exact ⟨hg s, hx s (hr s)⟩
  case fail               => exact hg s
  case step write next hi =>
    obtain ⟨hw, hn⟩ := hx s (hr s)
    exact (hi s hn).mono (fun _ _ h => ⟨ht hw h.left, h.right⟩) fun _ _ h => ht hw h

section Zoom

variable {τ : Type}

-- A program over a part of the state.
def zoom (get : σ → τ) (set : τ → σ → σ) : Resumption τ ε α → Resumption σ ε α
  | done a          => done a
  | fail e          => fail e
  | step write next => step (fun s => set (write (get s)) s) fun s => (next (get s)).zoom get set

variable {get : σ → τ} {set : τ → σ → σ} {P : σ → Prop}

-- What holds whatever the part is holds all along, and also when the program fails.
theorem respects_zoom (x : Resumption τ ε α) (hp : ∀ t s, P s → P (set t s))
    (hg : ∀ s s', P s → P s' → G s s') (hs : P s) :
    ((x.zoom get set).outcome : Resumption σ ε' (Except ε α)).Respects Eq G (fun _ => P) s := by
  induction x generalizing s
  case done => exact fun _ h => h ▸ hs
  case fail => exact fun _ h => h ▸ hs
  case step write next hi =>
    rintro _ rfl
    exact ⟨hg _ _ hs (hp _ _ hs), hi _ (hp _ _ hs)⟩

end Zoom

end Resumption

namespace Pool

variable {ι σ ε α : Type} [DecidableEq ι] {p : Pool ι σ ε α}
variable {R G : ι → σ → σ → Prop} {Q : ι → α → σ → Prop} {I : σ → Prop}

-- If the others allow what each program does, all programs keep their word under every schedule.
theorem respects_run (hr : ∀ i s, R i s s) (ht : ∀ {i a b c}, R i a b → R i b c → R i a c)
    (hg : ∀ i s, G i s s) (others : ∀ {i j s s'}, i ≠ j → G i s s' → R j s s')
    (keeps : ∀ {i s s'}, G i s s' → I s → I s') (hI : I p.shared)
    (h : ∀ i, (p.programs i).Respects (R i) (G i) (Q i) p.shared) (schedule : List ι) :
    I (p.run schedule).shared ∧
      ∀ i, ((p.run schedule).programs i).Respects (R i) (G i) (Q i) (p.run schedule).shared := by
  induction schedule generalizing p
  case nil         => exact ⟨hI, h⟩
  case cons i l hi =>
    have ⟨hs, hp⟩ := (h i).advance (hr i) (hg i)
    refine hi (keeps hs hI) ?_
    refine step_forall (A := fun i x s => x.Respects (R i) (G i) (Q i) s) hp fun j hj => ?_
    exact (h j).rely ht <| others hj.symm hs

end Pool
