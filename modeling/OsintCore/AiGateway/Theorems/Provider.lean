import OsintCore.AiGateway.Provider

-- The kind of permit with which calls of a priority are admitted.
def Priority.permit (priority : Priority) : LlmProvider.Permit :=
  if priority = .p0 then .reservedP0 else .shared

namespace LlmProvider

open GuardPool

-- What a call has done when its attempt begins: it was charged, and each attempt before was answered
-- with a transient error.
def attempts (n : Nat) : List Effect :=
  .charge :: (List.replicate n [.send, .receive (.error .transient)]).flatten

theorem attempts_succ {n : Nat} :
    attempts (n + 1) = attempts n ++ [.send, .receive (.error .transient)] := by
  rw [attempts, List.replicate_succ', List.flatten_append]
  simp [attempts]

-- All that a call may have done.
def Course (maxRetries : Nat) (log : List Effect) : Prop :=
  log = [] ∨ ∃ n ≤ maxRetries, ∃ rest : List Effect, log = attempts n ++ rest ∧
    (rest = [] ∨ rest = [.send] ∨ ∃ outcome, rest = [.send, .receive outcome])

section Course

variable {maxRetries n : Nat} {log before after : List Effect}

theorem course_attempts (h : n ≤ maxRetries) : Course maxRetries (attempts n) :=
  .inr ⟨n, h, [], (List.append_nil _).symm, .inl rfl⟩

theorem course_send (h : n ≤ maxRetries) : Course maxRetries (attempts n ++ [.send]) :=
  .inr ⟨n, h, _, rfl, .inr <| .inl rfl⟩

theorem course_receive {outcome : Except AttemptError Unit} (h : n ≤ maxRetries) :
    Course maxRetries (attempts n ++ [.send, .receive outcome]) :=
  .inr ⟨n, h, _, rfl, .inr <| .inr ⟨outcome, rfl⟩⟩

def Effect.isCharge : Effect → Bool
  | charge => true
  | _      => false

def Effect.isSend : Effect → Bool
  | send => true
  | _    => false

theorem countP_isCharge_attempts : (attempts n).countP Effect.isCharge = 1 := by
  induction n
  case zero      => rfl
  case succ n hi => rw [attempts_succ, List.countP_append, hi]; rfl

theorem countP_isSend_attempts : (attempts n).countP Effect.isSend = n := by
  induction n
  case zero      => rfl
  case succ n hi => rw [attempts_succ, List.countP_append, hi]; rfl

theorem Course.charged_once (h : Course maxRetries log) : log.countP Effect.isCharge ≤ 1 := by
  cases h
  case inl h => simp [h]
  case inr h =>
    have ⟨n, _, rest, hl, hr⟩ := h
    have hc : rest.countP Effect.isCharge = 0 := by
      obtain rfl | rfl | ⟨_, rfl⟩ := hr <;> rfl
    rw [hl, List.countP_append, countP_isCharge_attempts, hc]

theorem Course.sends_le (h : Course maxRetries log) :
    log.countP Effect.isSend ≤ 1 + maxRetries := by
  cases h
  case inl h => simp [h]
  case inr h =>
    have ⟨n, hn, rest, hl, hr⟩ := h
    have hc : rest.countP Effect.isSend ≤ 1 := by
      obtain rfl | rfl | ⟨_, rfl⟩ := hr
      case inl     => exact Nat.zero_le _
      case inr.inl => exact le_rfl
      case inr.inr => exact le_rfl
    rw [hl, List.countP_append, countP_isSend_attempts]
    omega

-- What stands right before a request.
def Licensed (before : List Effect) : Prop :=
  before = [.charge] ∨ ∃ earlier, before = earlier ++ [.send, .receive (.error .transient)]

theorem licensed_attempts : Licensed (attempts n) := by
  cases n
  case zero   => exact .inl rfl
  case succ n => exact .inr ⟨attempts n, attempts_succ⟩

def AllLicensed (log : List Effect) : Prop :=
  ∀ before after, log = before ++ .send :: after → Licensed before

theorem AllLicensed.concat (h : AllLicensed log) (effect : Effect)
    (he : effect = .send → Licensed log) : AllLicensed (log ++ [effect]) := by
  intro before after hl
  cases List.eq_nil_or_concat after
  case inl ha =>
    subst ha
    have ⟨hb, hs⟩ := List.append_inj' hl rfl
    exact hb ▸ he (List.cons.inj hs).left
  case inr ha =>
    have ⟨after', x, ha⟩ := ha
    subst ha
    rw [List.concat_eq_append, ← List.cons_append, ← List.append_assoc] at hl
    exact h before after' (List.append_inj' hl rfl).left

theorem allLicensed_attempts : AllLicensed (attempts n) := by
  induction n
  case zero =>
    have hn : AllLicensed [] := fun before after h => by cases before <;> cases h
    exact hn.concat .charge nofun
  case succ n hi =>
    have hs : AllLicensed (attempts n ++ [.send]) := hi.concat .send fun _ => licensed_attempts
    have hr := hs.concat (.receive <| .error .transient) nofun
    rwa [List.append_assoc, List.singleton_append, ← attempts_succ] at hr

theorem Course.allLicensed (h : Course maxRetries log) : AllLicensed log := by
  cases h
  case inl h => exact h ▸ fun before after h => by cases before <;> cases h
  case inr h =>
    have ⟨n, _, rest, hl, hr⟩ := h
    have hs : AllLicensed (attempts n ++ [.send]) :=
      allLicensed_attempts.concat .send fun _ => licensed_attempts
    obtain rfl | rfl | ⟨outcome, rfl⟩ := hr
    case inl => simpa [hl] using allLicensed_attempts
    case inr.inl => exact hl ▸ hs
    case inr.inr =>
      have hr := hs.concat (.receive outcome) nofun
      rwa [List.append_assoc, List.singleton_append, ← hl] at hr

end Course

def Ending.IsTurnedAway : Ending → Prop
  | unsupported => True
  | rejected _  => True
  | refused _   => True
  | _           => False

-- The `AdmitGuard` is dropped last.
def NoAdmission (scope : List Held) : Prop :=
  .permit .reservedP0 ∉ scope ∧ .permit .shared ∉ scope

instance {scope : List Held} : Decidable (NoAdmission scope) :=
  inferInstanceAs (Decidable (_ ∧ _))

namespace Call

-- Where a call stands tells what it holds and what it has done.
def Consistent (maxRetries : Nat) (call : Call) : Prop :=
  let admitted := call.admission = some call.priority.permit
  match call.phase with
  | .entered                  => call.admission = none ∧ call.log = []
  | .counted                  => call.priority ≠ .p0 ∧ call.admission = none ∧ call.log = []
  | .queued                   => call.priority ≠ .p0 ∧ call.admission = none ∧ call.log = []
  | .granted                  => admitted ∧ call.log = []
  | .admitted                 => admitted ∧ call.log = []
  | .charged                  => admitted ∧ call.log = attempts 0
  | .acquiring attempt        => admitted ∧ attempt ≤ maxRetries ∧ call.log = attempts attempt
  | .throttled attempt        => admitted ∧ attempt ≤ maxRetries ∧ call.log = attempts attempt
  | .pacing attempt           => admitted ∧ attempt ≤ maxRetries ∧ call.log = attempts attempt
  | .ready attempt            => admitted ∧ attempt ≤ maxRetries ∧ call.log = attempts attempt
  | .sent attempt             =>
    admitted ∧ attempt ≤ maxRetries ∧ call.log = attempts attempt ++ [.send]
  | .answered attempt outcome =>
    admitted ∧ attempt ≤ maxRetries ∧ (call.log = attempts attempt ++ [.send, .receive outcome] ∨
      outcome = .error .permanent ∧ call.log = attempts attempt)
  | .backingOff attempt       =>
    admitted ∧ attempt < maxRetries ∧ call.log = attempts (attempt + 1)
  | .returning scope ending   =>
    (call.admission = none ∨ admitted) ∧ Course maxRetries call.log ∧
      (ending.IsTurnedAway → call.log = []) ∧ NoAdmission scope

variable {config : LlmProviderConfig} {choice : Choice} {pool pool' : Pool} {call call' : Call}

theorem consistent_new {priority : Priority} : (new priority).Consistent config.maxRetries :=
  ⟨rfl, rfl⟩

theorem guards_cancel : call.cancel.guards = call.guards := by
  obtain ⟨priority, phase, admission, log⟩ := call
  cases phase <;> rfl

theorem Consistent.course (h : call.Consistent config.maxRetries) :
    Course config.maxRetries call.log := by
  obtain ⟨priority, phase, admission, log⟩ := call
  cases phase
  case entered    => exact .inl h.right
  case counted    => exact .inl h.right.right
  case queued     => exact .inl h.right.right
  case granted    => exact .inl h.right
  case admitted   => exact .inl h.right
  case charged    => exact h.right ▸ course_attempts (Nat.zero_le _)
  case acquiring  => exact h.right.right ▸ course_attempts h.right.left
  case throttled  => exact h.right.right ▸ course_attempts h.right.left
  case pacing     => exact h.right.right ▸ course_attempts h.right.left
  case ready      => exact h.right.right ▸ course_attempts h.right.left
  case sent       => exact h.right.right ▸ course_send h.right.left
  case backingOff => exact h.right.right ▸ course_attempts h.right.left
  case returning  => exact h.right.left
  case answered   =>
    cases h.right.right
    case inl hl => exact hl ▸ course_receive h.right.left
    case inr hl => exact hl.right ▸ course_attempts h.right.left

theorem Consistent.admission_eq (h : call.Consistent config.maxRetries) :
    call.admission = none ∨ call.admission = some call.priority.permit := by
  obtain ⟨priority, phase, admission, log⟩ := call
  cases phase
  case entered   => exact .inl h.left
  case counted   => exact .inl h.right.left
  case queued    => exact .inl h.right.left
  case returning => exact h.left
  all_goals exact .inr h.left

theorem consistent_cancel (h : call.Consistent config.maxRetries) :
    call.cancel.Consistent config.maxRetries := by
  have ha := h.admission_eq
  have hl := h.course
  obtain ⟨priority, phase, admission, log⟩ := call
  cases phase
  case returning => exact h
  all_goals exact ⟨ha, hl, False.elim, by simp [NoAdmission, Phase.scope]⟩

theorem advance_spec (hc : call.Consistent config.maxRetries)
    (h : call.advance config choice pool = some (pool', call')) :
    Moves pool call.guards pool' call'.guards ∧ call'.Consistent config.maxRetries := by
  obtain ⟨priority, phase, admission, log⟩ := call
  cases phase
  case entered =>
    obtain ⟨rfl, rfl⟩ : admission = none ∧ log = [] := hc
    simp only [advance] at h
    split at h
    case isTrue =>
      cases h
      exact ⟨.keep, .inl rfl, .inl rfl, fun _ => rfl, by decide⟩
    case isFalse =>
      split at h
      case isTrue hp =>
        split at h
        case h_1 hp' =>
          cases h
          exact ⟨.take hp' (.refl _), congrArg some (if_pos hp).symm, rfl⟩
        case h_2 =>
          cases h
          exact ⟨.keep, .inl rfl, .inl rfl, fun _ => rfl, by decide⟩
      case isFalse hp =>
        cases h
        exact ⟨.take rfl (.refl _), hp, rfl, rfl⟩
  case counted =>
    obtain ⟨hp, rfl, rfl⟩ : priority ≠ .p0 ∧ admission = none ∧ log = [] := hc
    simp only [advance] at h
    split at h
    case isTrue =>
      cases h
      exact ⟨.keep, .inl rfl, .inl rfl, fun _ => rfl, by decide⟩
    case isFalse =>
      cases h
      exact ⟨.keep, hp, rfl, rfl⟩
  case queued =>
    obtain ⟨hp, rfl, rfl⟩ : priority ≠ .p0 ∧ admission = none ∧ log = [] := hc
    have ⟨pool'', ht, he⟩ := Option.map_eq_some_iff.mp h
    cases he
    exact ⟨.take ht (.swap _ _ _), congrArg some (if_neg hp).symm, rfl⟩
  case granted =>
    cases h
    exact ⟨.drop (.refl _), hc⟩
  case admitted =>
    obtain ⟨ha, rfl⟩ : admission = some priority.permit ∧ log = [] := hc
    simp only [advance] at h
    split at h
    case h_1 =>
      cases h
      exact ⟨.keep, ha, rfl⟩
    case h_2 =>
      cases h
      exact ⟨.keep, .inr ha, .inl rfl, fun _ => rfl, by decide⟩
  case charged =>
    cases h
    exact ⟨.take rfl (.refl _), hc.left, Nat.zero_le _, hc.right⟩
  case acquiring attempt =>
    have ⟨pool'', ht, he⟩ := Option.map_eq_some_iff.mp h
    cases he
    cases hr : config.rateLimited
    case true  => simpa [hr] using ⟨.take ht (.refl _), hc⟩
    case false => simpa [hr] using ⟨.take ht (.refl _), hc⟩
  case throttled attempt =>
    have ⟨pool'', ht, he⟩ := Option.map_eq_some_iff.mp h
    cases he
    exact ⟨.take ht (.refl _), hc⟩
  case pacing attempt =>
    cases h
    exact ⟨.drop (.refl _), hc⟩
  case ready attempt =>
    have ⟨ha, hn, hl⟩ := hc
    simp only [advance] at h
    split at h
    case isTrue =>
      cases h
      exact ⟨.keep, ha, hn, congrArg (· ++ _) hl⟩
    case isFalse =>
      cases h
      exact ⟨.keep, ha, hn, .inr ⟨rfl, hl⟩⟩
  case sent attempt =>
    have ⟨ha, hn, hl⟩ := hc
    cases h
    refine ⟨.keep, ha, hn, .inl ?_⟩
    exact (congrArg (· ++ _) hl).trans (List.append_assoc _ _ _)
  case answered attempt outcome =>
    have ⟨ha, hn, hl⟩ := hc
    have hd : Course config.maxRetries log := hc.course
    cases outcome
    case ok =>
      cases h
      exact ⟨.drop (.refl _), .inr ha, hd, False.elim, by decide⟩
    case error e =>
      cases e
      case permanent =>
        cases h
        exact ⟨.drop (.refl _), .inr ha, hd, False.elim, by decide⟩
      case invalidResponse =>
        cases h
        exact ⟨.drop (.refl _), .inr ha, hd, False.elim, by decide⟩
      case transient =>
        have hl : log = attempts (attempt + 1) := by
          cases hl
          case inl hl => exact hl.trans attempts_succ.symm
          case inr hl => cases hl.left
        simp only [advance, Option.some.injEq, Prod.mk.injEq] at h
        obtain ⟨rfl, rfl⟩ := h
        split
        case isTrue hlt => exact ⟨.drop (.refl _), ha, hlt, hl⟩
        case isFalse    => exact ⟨.drop (.refl _), .inr ha, hd, False.elim, by decide⟩
  case backingOff attempt =>
    cases h
    exact ⟨.keep, hc⟩
  case returning scope ending =>
    have ⟨ha, hl, ht, hs⟩ := hc
    cases scope
    case nil =>
      have ⟨p, hp, he⟩ := Option.map_eq_some_iff.mp h
      obtain rfl : admission = some p := hp
      cases he
      exact ⟨.drop (.refl _), .inl rfl, hl, ht, hs⟩
    case cons g gs =>
      cases h
      exact ⟨.drop (.refl _), ha, hl, ht, hs.imp (mt (.tail _)) (mt (.tail _))⟩

end Call

-- What holds between any two steps: the permits and counters are those of the guards which the calls
-- have in scope, and each call has done what belongs to the place where it stands.
structure Invariant (config : LlmProviderConfig) (σ : State) : Prop where
  balanced   : σ.pool.Balanced (capacity config) (σ.calls.flatMap Call.guards)
  consistent : ∀ call ∈ σ.calls, call.Consistent config.maxRetries

section Run

variable {config : LlmProviderConfig} {σ : State} {call call' : Call} {i : Nat} {pool' : Pool}
variable {event : Event} {events : List Event} {choice : Choice}

theorem invariant_init : Invariant config (.init config) where
  balanced   := balanced_full
  consistent := by simp [State.init]

theorem Invariant.set (h : Invariant config σ) (hi : σ.calls[i]? = some call)
    (hm : Moves σ.pool call.guards pool' call'.guards)
    (hc : call'.Consistent config.maxRetries) :
    Invariant config ⟨pool', σ.calls.set i call'⟩ where
  balanced := by
    have ⟨rest, hl, hs⟩ := List.flatMap_set_perm (f := Call.guards) hi
    exact ((h.balanced.perm hl).moves hm).perm (hs call').symm
  consistent c hc' := by
    cases List.mem_or_eq_of_mem_set hc'
    case inl hm => exact h.consistent c hm
    case inr he => exact he ▸ hc

theorem Invariant.step (h : Invariant config σ) : Invariant config (σ.step config event) := by
  cases event
  case call priority =>
    refine ⟨?_, fun c hc => ?_⟩
    case refine_1 => simpa [State.step, Call.new, Call.guards, Phase.scope] using h.balanced
    case refine_2 =>
      cases List.mem_append.mp hc
      case inl hc => exact h.consistent c hc
      case inr hc => exact List.mem_singleton.mp hc ▸ Call.consistent_new
  case proceed i choice =>
    simp only [State.step]
    cases hi : σ.calls[i]?
    case none => exact h
    case some call =>
      dsimp only
      cases ha : call.advance config choice σ.pool
      case none => exact h
      case some next =>
        have ⟨hm, hc⟩ := Call.advance_spec (h.consistent call (List.mem_of_getElem? hi)) ha
        exact h.set hi hm hc
  case cancel i =>
    simp only [State.step]
    cases hi : σ.calls[i]?
    case none => exact h
    case some call =>
      have hc := Call.consistent_cancel (h.consistent call (List.mem_of_getElem? hi))
      exact h.set hi (Call.guards_cancel ▸ .keep) hc

theorem invariant_run : Invariant config (run config events) := by
  have hr (events : List Event) (σ : State) (h : Invariant config σ) :
      Invariant config (events.foldl (State.step config) σ) := by
    induction events generalizing σ
    case nil               => exact h
    case cons event l hi => exact hi _ h.step
  exact hr events _ invariant_init

theorem Call.noAdmission_scope (h : call.Consistent config.maxRetries) :
    NoAdmission call.phase.scope := by
  obtain ⟨priority, phase, admission, log⟩ := call
  cases phase
  case returning => exact h.right.right.right
  all_goals simp [NoAdmission, Phase.scope]

theorem Call.turnedAway {scope : List Held} {ending : Ending}
    (h : call.Consistent config.maxRetries) (hp : call.phase = .returning scope ending)
    (ht : ending.IsTurnedAway) : call.log = [] := by
  obtain ⟨priority, phase, admission, log⟩ := call
  obtain rfl : phase = .returning scope ending := hp
  exact h.right.right.left ht

theorem Call.log_advance (h : call.advance config choice σ.pool = some (pool', call'))
    (hp : call.phase ≠ .admitted) : call'.log = call.log ∨ ∃ effect, effect ≠ .charge ∧
      call'.log = call.log ++ [effect] := by
  obtain ⟨priority, phase, admission, log⟩ := call
  cases phase
  case entered =>
    simp only [advance] at h
    split at h
    case isTrue  => cases h; exact .inl rfl
    case isFalse =>
      split at h
      case isFalse => cases h; exact .inl rfl
      case isTrue  => split at h <;> cases h <;> exact .inl rfl
  case counted =>
    simp only [advance] at h
    split at h <;> cases h <;> exact .inl rfl
  case queued =>
    have ⟨_, _, he⟩ := Option.map_eq_some_iff.mp h
    cases he
    exact .inl rfl
  case granted  => cases h; exact .inl rfl
  case admitted => exact absurd rfl hp
  case charged  => cases h; exact .inl rfl
  case acquiring =>
    have ⟨_, _, he⟩ := Option.map_eq_some_iff.mp h
    cases he
    exact .inl rfl
  case throttled =>
    have ⟨_, _, he⟩ := Option.map_eq_some_iff.mp h
    cases he
    exact .inl rfl
  case pacing => cases h; exact .inl rfl
  case ready =>
    simp only [advance] at h
    split at h
    case isTrue  => cases h; exact .inr ⟨.send, nofun, rfl⟩
    case isFalse => cases h; exact .inl rfl
  case sent       => cases h; exact .inr ⟨.receive _, nofun, rfl⟩
  case answered   => cases h; exact .inl rfl
  case backingOff => cases h; exact .inl rfl
  case returning scope ending =>
    cases scope
    case cons => cases h; exact .inl rfl
    case nil  =>
      have ⟨_, _, he⟩ := Option.map_eq_some_iff.mp h
      cases he
      exact .inl rfl

-- The quota is asked in one place only, between two looks at which the `AdmitGuard` is held.
theorem Call.advance_charge (h : call.advance config choice σ.pool = some (pool', call'))
    (hl : call'.log = call.log ++ [.charge]) : call.phase = .admitted := by
  by_contra hp
  cases log_advance h hp
  case inl he => simp [he] at hl
  case inr he =>
    have ⟨effect, hn, he⟩ := he
    rw [he] at hl
    exact hn (List.cons.inj (List.append_cancel_left hl)).left

theorem Call.admission_charge (hc : call.Consistent config.maxRetries)
    (h : call.advance config choice σ.pool = some (pool', call'))
    (hl : call'.log = call.log ++ [.charge]) :
    call.admission = some call.priority.permit ∧ call'.admission = some call.priority.permit := by
  have hp := advance_charge h hl
  obtain ⟨priority, phase, admission, log⟩ := call
  obtain rfl : phase = .admitted := hp
  simp only [advance] at h
  split at h
  case h_1 => cases h; exact ⟨hc.left, hc.left⟩
  case h_2 => cases h; exact ⟨hc.left, hc.left⟩

theorem Call.advance_p0Busy {scope : List Held}
    (h : call.advance config choice σ.pool = some (pool', call')) (hp : call.phase = .entered)
    (hp' : call'.phase = .returning scope (.rejected .p0Busy)) :
    σ.pool.available .reservedP0 = 0 := by
  obtain ⟨priority, phase, admission, log⟩ := call
  obtain rfl : phase = .entered := hp
  simp only [advance] at h
  split at h
  case isTrue  => cases h; cases hp'
  case isFalse =>
    split at h
    case isFalse => cases h; cases hp'
    case isTrue  =>
      split at h
      case h_1 => cases h; cases hp'
      case h_2 ht =>
        have ⟨p, he, ha⟩ := take_eq_none ht
        cases he
        exact ha

theorem countP_le_count {p : Call → Bool} {g : Held} {calls : List Call}
    (h : ∀ call ∈ calls, p call → g ∈ call.guards) :
    calls.countP p ≤ (calls.flatMap Call.guards).count g := by
  induction calls
  case nil => exact Nat.zero_le _
  case cons call calls hi =>
    have ⟨hc, hl⟩ := List.forall_mem_cons.mp h
    rw [List.countP_cons, List.flatMap_cons, List.count_append, Nat.add_comm]
    refine Nat.add_le_add ?_ (hi hl)
    split
    case isTrue hp => exact List.count_pos_iff.mpr (hc hp)
    case isFalse   => exact Nat.zero_le _

-- A permit for admission is held in the `AdmitGuard` and nowhere else.
theorem Invariant.count_eq (h : Invariant config σ) {p : Permit}
    (hp : p = .reservedP0 ∨ p = .shared) :
    (σ.calls.flatMap Call.guards).count (.permit p) = σ.calls.countP (·.admission = some p) := by
  have hg (calls : List Call) (h : ∀ call ∈ calls, call.Consistent config.maxRetries) :
      (calls.flatMap Call.guards).count (.permit p) = calls.countP (·.admission = some p) := by
    induction calls
    case nil => rfl
    case cons call calls hi =>
      have ⟨hc, hl⟩ := List.forall_mem_cons.mp h
      have hn : Guard.permit p ∉ call.phase.scope := by
        obtain rfl | rfl := hp
        case inl => exact (Call.noAdmission_scope hc).left
        case inr => exact (Call.noAdmission_scope hc).right
      rw [List.flatMap_cons, List.count_append, hi hl, List.countP_cons, Nat.add_comm,
        Call.guards, List.count_append, List.count_eq_zero.mpr hn]
      cases call.admission
      case none   => rfl
      case some q => by_cases hq : q = p <;> simp [hq]
  exact hg _ h.consistent

def Call.IsOver (call : Call) : Prop :=
  call.guards = [] ∧ ∃ ending, call.phase = .returning [] ending

def Call.isWaitingForReply (call : Call) : Bool :=
  match call.phase with
  | .sent _ => true
  | _       => false

end Run

structure Protocol (config : LlmProviderConfig) (σ : State) : Prop where
  chargedOnce : ∀ call ∈ σ.calls, call.log.countP Effect.isCharge ≤ 1
  sends       : ∀ call ∈ σ.calls, call.log.countP Effect.isSend ≤ 1 + config.maxRetries
  retried     : ∀ call ∈ σ.calls, AllLicensed call.log
  turnedAway  : ∀ call ∈ σ.calls, ∀ scope ending, call.phase = .returning scope ending →
                ending.IsTurnedAway → call.log = []
  charged     : ∀ call ∈ σ.calls, ∀ choice pool' call',
                call.advance config choice σ.pool = some (pool', call') →
                call'.log = call.log ++ [.charge] →
                call.admission = some call.priority.permit ∧
                call'.admission = some call.priority.permit
  admission   : ∀ call ∈ σ.calls, ∀ p ∈ call.admission, p = call.priority.permit
  admissions  : ∀ p, σ.calls.countP (·.admission = some p) ≤ capacity config p
  requests    : σ.calls.countP Call.isWaitingForReply ≤ max config.maxConcurrent 1
  p0Busy      : ∀ call ∈ σ.calls, ∀ choice pool' call' scope,
                call.advance config choice σ.pool = some (pool', call') →
                call.phase = .entered → call'.phase = .returning scope (.rejected .p0Busy) →
                σ.calls.countP (fun call => call.admission = some .reservedP0 ∧
                  call.priority = .p0) = max config.p0ReservedCapacity 1
  quiescent   : (∀ call ∈ σ.calls, call.IsOver) → σ.pool = .full (capacity config)

theorem run_protocol (config : LlmProviderConfig) (events : List Event) :
    Protocol config (run config events) where
  chargedOnce call hm := (invariant_run.consistent call hm).course.charged_once
  sends call hm       := (invariant_run.consistent call hm).course.sends_le
  retried call hm     := (invariant_run.consistent call hm).course.allLicensed
  turnedAway call hm  := fun _ _ => Call.turnedAway (invariant_run.consistent call hm)
  charged call hm     := fun _ _ _ => Call.admission_charge (invariant_run.consistent call hm)
  admission call hm   := by
    intro p hp
    cases (invariant_run.consistent call hm).admission_eq
    case inl h => rw [h] at hp; cases hp
    case inr h => rw [h] at hp; cases hp; rfl
  admissions p := by
    refine le_trans (countP_le_count fun call _ hp => ?_) (invariant_run.balanced.count_le p)
    have hp : call.admission = some p := of_decide_eq_true hp
    simp [Call.guards, hp]
  requests := by
    refine le_trans (countP_le_count fun call _ hp => ?_)
      (invariant_run.balanced.count_le .request)
    obtain ⟨priority, phase, admission, log⟩ := call
    cases phase
    case sent => exact .head _
    all_goals cases hp
  p0Busy call hm choice pool' call' scope h hp hp' := by
    have ha := Call.advance_p0Busy h hp hp'
    have hi : Invariant config (run config events) := invariant_run
    have hb := hi.balanced.available .reservedP0
    rw [ha, Nat.zero_add, invariant_run.count_eq (.inl rfl)] at hb
    rw [← show capacity config .reservedP0 = max config.p0ReservedCapacity 1 from rfl, ← hb]
    refine List.countP_congr fun c hc => ?_
    simp only [decide_eq_true_eq]
    refine and_iff_left_of_imp fun hr => ?_
    have hc := (invariant_run.consistent c hc).admission_eq
    rw [hr] at hc
    have hq : Permit.reservedP0 = c.priority.permit := Option.some.inj <| hc.resolve_left nofun
    by_contra hn
    rw [Priority.permit, if_neg hn] at hq
    cases hq
  quiescent h := by
    have hg : (run config events).calls.flatMap Call.guards = [] :=
      List.flatMap_eq_nil_iff.mpr fun call hm => (h call hm).left
    exact (hg ▸ invariant_run.balanced).eq_full

end LlmProvider
