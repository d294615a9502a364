import OsintCore.Control.Interleaving
import OsintCore.Resources.Theorems.Creation

namespace Resources

-- What has become of a request: the row which it has written, if any, and whether it got its 201.
inductive Mark
  | unreported (row : Option Row)
  | created (a : Created)

def Mark.row : Mark → Option Row
  | unreported row => row
  | created a      => some a.row

section Stages

open Resumption

variable {ρ : Type} {k : Creation ρ} {c : Call} {asked : Call → Except ApiError Row} {m : Mark}

-- The points of a handler between two of its accesses.
inductive Stage (k : Creation ρ) (c : Call) (asked : Call → Except ApiError Row) :
    Mark → M Created → Prop
  | failed {w : Option Row} {e : ApiError} : Stage k c asked (.unreported w) (.fail e)
  | reads {w : Option Row} {write : ResourceStore → ResourceStore} {next : ResourceStore → M Created}
    (reads : ∀ s, write s = s) (continues : ∀ s, Stage k c asked (.unreported w) (next s)) :
    Stage k c asked (.unreported w) (.step write next)
  | saving {row : ρ} (asks : asked c = .ok (k.row row)) :
    Stage k c asked (.unreported none) (k.save c row)
  | rejecting {w : Option Row} {e : ApiError} :
    Stage k c asked (.unreported w) (k.respond c (.error e))
  | accepting {a : Created} : Stage k c asked (.unreported a.row) (k.respond c (.ok a))
  | done {a : Created} : Stage k c asked (.created a) (.done a)

theorem Stage.of_readOnly {α : Type} {x : M α} {f : α → M Created} {Q : α → Prop}
    {w : Option Row} (hx : x.ReadOnly) (hy : x.Yields Q)
    (hf : ∀ a, Q a → Stage k c asked (.unreported w) (f a)) :
    Stage k c asked (.unreported w) (x >>= f) := by
  induction x
  case done a             => exact hf a hy
  case fail               => exact .failed
  case step write next hi => exact .reads hx.left fun s => hi s (hx.right s) (hy s)

theorem stage_create (hk : k.Sound asked) : Stage k c asked (.unreported none) (k.create c) := by
  refine .of_readOnly readOnly_ofExcept yields_true fun _ _ => ?_
  rw [outcome_bind, bind_assoc]
  refine .of_readOnly (hk.prepare_readOnly c).outcome (hk.prepare_yields c).outcome fun r hr => ?_
  cases r
  case error e => exact .rejecting
  case ok row  => exact .saving (hr row rfl)

theorem stage_answer (hk : k.Sound asked) {row : ρ} :
    Stage k c asked (.unreported (k.row row)) ((k.answer c row).outcome >>= k.respond c) := by
  refine .of_readOnly (hk.answer_readOnly c row).outcome (hk.answer_yields c row).outcome
    fun r hr => ?_
  cases r
  case error e => exact .rejecting
  case ok a    => exact hr a rfl ▸ .accepting

-- The write is one access; what comes next depends on its answer.
theorem save_eq {row : ρ} : k.save c row =
    .step (if c.reply .write = .failed then id else fun s => (k.put c row s).toOption.getD s) fun s =>
      if c.reply .write = .answered then
        match k.put c row s with
        | .ok _    => (k.answer c row).outcome >>= k.respond c
        | .error e => k.respond c (.error (k.refusal c e))
      else
        k.respond c (.error .unavailable) := by
  unfold Creation.save Creation.store Call.write
  cases c.reply .write
  case answered =>
    refine congrArg (step _) (funext fun s => ?_)
    beta_reduce
    cases k.put c row s <;> rfl
  case failed => rfl
  case lost => rfl

theorem save_ne_done {row : ρ} {a : Created} : k.save c row ≠ .done a := by
  rw [save_eq]
  nofun

theorem Stage.eq_created {a : Created} (h : Stage k c asked m (.done a)) : m = .created a := by
  generalize hx : (.done a : M Created) = x at h
  cases h
  case done           => cases hx; rfl
  case saving row _   => exact absurd hx.symm save_ne_done
  all_goals nomatch hx

theorem Stage.eq_done {a : Created} {x : M Created} (h : Stage k c asked (.created a) x) :
    x = .done a := by
  cases h
  rfl

-- What one access of a handler does to its mark and to the store.
inductive Move (k : Creation ρ) (c : Call) (asked : Call → Except ApiError Row) (x : M Created) :
    Mark → Mark → ResourceStore → ResourceStore → Prop
  | rest {m : Mark} {s : ResourceStore} : Move k c asked x m m s s
  | store {row : ρ} {s s' : ResourceStore} (saving : x = k.save c row)
    (carried : c.reply .write ≠ .failed) (asks : asked c = .ok (k.row row))
    (adds : Adds (k.row row) s s') : Move k c asked x (.unreported none) (.unreported (k.row row)) s s'
  | reject {m : Mark} {e : ApiError} {s s' : ResourceStore} (row? : s'.row? = s.row?)
    (auditLog : s'.auditLog = s.auditLog ∨ s'.auditLog = s.auditLog ++ [k.rejectedEntry c e]) :
    Move k c asked x m m s s'
  | accept {a : Created} {s s' : ResourceStore} (row? : s'.row? = s.row?)
    (auditLog : s'.auditLog =
      if c.reply .append = .failed then s.auditLog else s.auditLog ++ [k.successEntry c a]) :
    Move k c asked x (.unreported a.row) (.created a) s s'

theorem advance_save (hk : k.Sound asked) {row : ρ} (ha : asked c = .ok (k.row row))
    (s : ResourceStore) :
    ∃ m, Stage k c asked m ((k.save c row).advance s).snd ∧
      Move k c asked (k.save c row) (.unreported none) m s ((k.save c row).advance s).fst := by
  have hs : ((k.save c row).advance s).fst =
      if c.reply .write = .failed then s else (k.put c row s).toOption.getD s := by
    rw [save_eq, advance_step]
    split <;> rfl
  have hx : ((k.save c row).advance s).snd = if c.reply .write = .answered then
        match k.put c row s with
        | .ok _    => (k.answer c row).outcome >>= k.respond c
        | .error e => k.respond c (.error (k.refusal c e))
      else k.respond c (.error .unavailable) := by
    rw [save_eq, advance_step]
  rw [hs, hx]
  cases hp : k.put c row s
  case error e =>
    refine ⟨.unreported none, ?_, ?_⟩
    · split <;> exact .rejecting
    · split <;> exact .rest
  case ok s' =>
    cases hr : c.reply .write
    case failed   => exact ⟨.unreported none, .rejecting, .rest⟩
    case answered => exact ⟨_, stage_answer hk, .store rfl (by simp [hr]) ha (hk.adds hp)⟩
    case lost     => exact ⟨_, .rejecting, .store rfl (by simp [hr]) ha (hk.adds hp)⟩

theorem advance_audit_bind {entry : AuditEntry} {f : Unit → M Created} {s : ResourceStore} :
    (c.audit entry >>= f).advance s =
      (if c.reply .append = .failed then s else s.append entry, f ()) := by
  change ((if _ then id else _) s, f ()) = _
  split <;> rfl

theorem Stage.advance {x : M Created} (hk : k.Sound asked) (h : Stage k c asked m x)
    (s : ResourceStore) :
    ∃ m', Stage k c asked m' (x.advance s).snd ∧ Move k c asked x m m' s (x.advance s).fst := by
  cases h
  case failed        => exact ⟨_, .failed, .rest⟩
  case done          => exact ⟨_, .done, .rest⟩
  case reads hw hn   => exact ⟨_, hn s, by rw [advance_step, hw]; exact .rest⟩
  case saving row ha => exact advance_save hk ha s
  case rejecting e   =>
    have h : (k.respond c (.error e)).advance s = _ := advance_audit_bind
    rw [h]
    refine ⟨_, .failed, .reject (e := e) ?_ ?_⟩
    · split <;> rfl
    · split
      case isTrue  => exact .inl rfl
      case isFalse => exact .inr rfl
  case accepting a   =>
    have h : (k.respond c (.ok a)).advance s = _ := advance_audit_bind
    rw [h]
    refine ⟨.created a, .done, .accept ?_ ?_⟩
    · split <;> rfl
    · split <;> rfl

end Stages

end Resources
