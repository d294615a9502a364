import OsintCore.Control.Fault
import OsintCore.Jobs.Theorems.Accounts

open Resumption

namespace JobService

variable {id : JobId} {now : Timestamp} {broker : Broker} {s : JobStore} {job : Job} {φ : Type}
  {f : Faulty JobStore φ} {plan : Nat → Option (Fault φ)}

-- The services answer, and the job is accepted for another run.
def Accepts (id : JobId) (s : JobStore) : Prop :=
  ∀ now, ∃ job s', (retry id now (some (.ok ()))).run s = (.ok job, s')

-- If the retry ends with an error, the next one is accepted.
def Retries (id : JobId) (now : Timestamp) (broker : Broker) (plan : Nat → Option (Fault φ))
    (s : JobStore) : Prop :=
  ∀ e s', (retry id now broker).faulty.run ⟨s, plan⟩ = (.error e, s') → Accepts id s'.state

-- One of the two reads before the change of the status fails, or the change is not stored.
def FailsEarly (plan : Nat → Option (Fault φ)) : Prop :=
  (plan 0).isSome ∨ (plan 1).isSome ∨ (plan 2).any (·.isLost)

-- Neither the store nor the broker fails.
def NeverFails (broker : Broker) (plan : Nat → Option (Fault φ)) : Prop :=
  (∀ n < 4, plan n = none) ∧
    match broker with
    | none                  => True
    | some (.error _)       => False
    | some (.ok ())         => plan 4 = none

def retrying (job : Job) : Job :=
  { job with
    status      := .retrying
    retryCount  := job.retryCount + 1
    completedAt := none }

theorem applyTransition_retrying (h : job.status = .failed) :
    applyTransition job .retrying none now = .ok (retrying job) := by
  simp [applyTransition, h, canTransition, retrying]

theorem run_faulty_get : (get id).faulty.run f =
    match f.plan 0, f.state.getJob id with
    | some fault, _        => (.error (.inl fault.error), f.next f.state)
    | none,       some job => (.ok job, f.next f.state)
    | none,       none     => (.error (.inr (.notFound id)), f.next f.state) := by
  rw [get, run_faulty_bind, run_faulty_read]
  cases f.plan 0
  case some => rfl
  case none => cases f.state.getJob id <;> rfl

theorem run_faulty_put : (put job).faulty.run f =
    match f.plan 0 with
    | none                     => (.ok (), f.next (f.state.putJob job))
    | some (.lost e)           => (.error (.inl e), f.next f.state)
    | some (.unacknowledged e) => (.error (.inl e), f.next (f.state.putJob job)) := by
  rw [put, run_faulty_step]
  rcases f.plan 0 with _ | _ | _ <;> rfl

theorem run_dispatch (h : s.getJob id = some job) (hd : job.isDispatchable) :
    (dispatch id (some (.ok ()))).run s =
      (.ok job, { s with dispatched := s.dispatched ++ [job.payload] }) := by
  simp only [dispatch, run_bind, run_get, h, hd]
  rfl

theorem getJob_putJob_retrying (h : s.getJob id = some job) :
    (s.putJob (retrying job)).getJob id = some (JobStore.rowOf (retrying job)) :=
  JobStore.getJob_putJob.trans <| if_pos (JobStore.getJob_id h)

theorem accepts_of_failed (h : s.getJob id = some job) (hs : job.status = .failed) :
    Accepts id s := by
  intro now
  have hr : (retry id now (some (.ok ()))).run s =
      (dispatch id (some (.ok ()))).run (s.putJob (retrying job)) := by
    simp [retry, run_bind, run_get, run_transition, h, hs, applyTransition_retrying hs]
  exact ⟨_, _, hr.trans <| run_dispatch (getJob_putJob_retrying h) rfl⟩

theorem not_accepts (h : s.getJob id = some job) (hs : job.status ≠ .failed) : ¬Accepts id s := by
  intro ha
  have ⟨_, _, hr⟩ := ha 0
  simp [retry, run_bind, run_get, h, hs, run] at hr

-- What a dispatch has stored of the jobs is what it has found.
theorem jobs_faulty_dispatch :
    ((dispatch id broker).faulty.run f).snd.state.jobs = f.state.jobs := by
  simp only [dispatch, run_faulty_bind, run_faulty_get]
  rcases f.plan 0 with _ | _
  case some => rfl
  case none =>
    cases f.state.getJob id
    case none => rfl
    case some job =>
      dsimp only
      cases job.isDispatchable
      case false => rfl
      case true =>
        simp only [Bool.not_true, Bool.false_eq_true, if_false, run_faulty_bind]
        rcases broker with _ | _ | _
        case none       => rfl
        case some.error => rfl
        case some.ok    =>
          simp only [publish, run_faulty_step, Faulty.next]
          rcases f.plan 1 with _ | _ | _ <;> rfl

variable (broker) in
theorem faulty_dispatch_isOk (h : f.state.getJob id = some job) (hd : job.isDispatchable) :
    (∃ job f', (dispatch id broker).faulty.run f = (.ok job, f')) ↔ f.plan 0 = none ∧
      match broker with
      | none            => True
      | some (.error _) => False
      | some (.ok ())   => f.plan 1 = none := by
  simp only [dispatch, run_faulty_bind, run_faulty_get, h]
  rcases f.plan 0 with _ | _
  case some => simp
  case none =>
    simp only [hd, Bool.not_true, Bool.false_eq_true, if_false, run_faulty_bind]
    rcases broker with _ | _ | _
    case none       => simp [publish]
    case some.error => simp [publish]
    case some.ok    =>
      simp only [publish, run_faulty_step, Faulty.next]
      rcases f.plan 1 with _ | _ | _
      case none                => exact iff_of_true ⟨_, _, rfl⟩ (by simp)
      case some.lost           => simp
      case some.unacknowledged => simp

theorem run_faulty_retry (h : s.getJob id = some job) (hs : job.status = .failed) :
    (retry id now broker).faulty.run ⟨s, plan⟩ =
      match plan 0, plan 1, plan 2 with
      | some fault, _,          _                        =>
        (.error (.inl fault.error), ⟨s, fun n => plan (n + 1)⟩)
      | none,       some fault, _                        =>
        (.error (.inl fault.error), ⟨s, fun n => plan (n + 2)⟩)
      | none,       none,       some (.lost e)           =>
        (.error (.inl e), ⟨s, fun n => plan (n + 3)⟩)
      | none,       none,       some (.unacknowledged e) =>
        (.error (.inl e), ⟨s.putJob (retrying job), fun n => plan (n + 3)⟩)
      | none,       none,       none                     =>
        (dispatch id broker).faulty.run ⟨s.putJob (retrying job), fun n => plan (n + 3)⟩ := by
  simp only [retry, transition, run_faulty_bind, run_faulty_get, Faulty.next]
  cases h₀ : plan 0
  case some => rfl
  case none =>
    simp only [h, hs, ne_eq, not_true_eq_false, if_false, run_faulty_bind, run_faulty_get,
      Faulty.next]
    cases h₁ : plan 1
    case some => rfl
    case none =>
      simp only [applyTransition_retrying hs]
      have ho : (Resumption.ofExcept (.ok (retrying job)) : Resumption JobStore JobError Job) =
          pure (retrying job) := rfl
      simp only [ho, run_faulty_pure, run_faulty_put, Faulty.next]
      rcases h₂ : plan 2 with _ | _ | _ <;> simp

theorem not_accepts_faulty_dispatch (h : s.getJob id = some job) :
    ¬Accepts id ((dispatch id broker).faulty.run ⟨s.putJob (retrying job), plan⟩).snd.state := by
  have hj : ((dispatch id broker).faulty.run ⟨s.putJob (retrying job), plan⟩).snd.state.getJob id =
      some (JobStore.rowOf (retrying job)) := by
    rw [JobStore.getJob, jobs_faulty_dispatch]
    exact getJob_putJob_retrying h
  exact not_accepts hj (by simp [JobStore.rowOf, retrying])

-- A retry can be repeated unless it fails with the changed status in the store.
theorem retry_retries_iff (h : s.getJob id = some job) (hs : job.status = .failed) :
    Retries id now broker plan s ↔ FailsEarly plan ∨ NeverFails broker plan := by
  unfold Retries FailsEarly NeverFails
  rw [run_faulty_retry h hs]
  have ha : Accepts id s := accepts_of_failed h hs
  rcases h₀ : plan 0 with _ | _
  case some => simpa using ha
  case none =>
    rcases h₁ : plan 1 with _ | _
    case some => simpa using ha
    case none =>
      rcases h₂ : plan 2 with _ | _ | _
      case some.lost           => simpa [Fault.isLost] using ha
      case some.unacknowledged =>
        have hn : ¬Accepts id (s.putJob (retrying job)) :=
          not_accepts (getJob_putJob_retrying h) (by simp [JobStore.rowOf, retrying])
        refine iff_of_false (fun hr => hn <| hr _ _ rfl) ?_
        rintro ((hf | hf | hf) | ⟨hf, -⟩)
        case inr => cases h₂.symm.trans (hf 2 (by decide))
        all_goals cases hf
      case none =>
        have hd := faulty_dispatch_isOk broker
          (f := ⟨s.putJob (retrying job), fun n => plan (n + 3)⟩) (getJob_putJob_retrying h) rfl
        have hl : (∀ n < 4, plan n = none) ↔ plan 3 = none := by
          refine ⟨fun hn => hn 3 (by decide), fun h₃ n hn => ?_⟩
          interval_cases n <;> assumption
        simp only [Option.isSome_none, Bool.false_eq_true, Option.any_none, false_or, hl]
        refine Iff.trans ⟨fun hr => ?_, fun ho _ _ he => ?_⟩ hd
        case refine_1 =>
          rcases he : (dispatch id broker).faulty.run
            ⟨s.putJob (retrying job), fun n => plan (n + 3)⟩ with ⟨e | job', f⟩
          case error => exact (he ▸ not_accepts_faulty_dispatch h) (hr _ _ he) |>.elim
          case ok    => exact ⟨_, _, rfl⟩
        case refine_2 =>
          obtain ⟨_, _, ho⟩ := ho
          cases ho.symm.trans he

namespace Sample

def failedJob : Job where
  id            := 1
  jobType       := "stix_export"
  status        := .failed
  correlationId := none
  createdAt     := 0
  startedAt     := some 0
  completedAt   := some 0
  retryCount    := 0
  error         := some "逾時"
  parameters    := none

def failedStore : JobStore :=
  ({} : JobStore).putJob failedJob

-- The write of the status fails, whether it takes effect or not.
def failingWrite (fault : Fault Unit) (n : Nat) : Option (Fault Unit) :=
  if n = 2 then some fault else none

end Sample

theorem retry_retries_iff_failingWrite :
    Retries 1 0 none (Sample.failingWrite (.lost ())) Sample.failedStore :=
  (retry_retries_iff (show Sample.failedStore.getJob 1 = some Sample.failedJob from rfl) rfl).mpr <|
    .inl <| .inr <| .inr rfl

-- The broker does not answer, and the job stays behind as one which waits for it.
theorem not_retry_retries : ¬∀ (job : Job) (s : JobStore) (now : Timestamp) (broker : Broker)
    (plan : Nat → Option (Fault Unit)), s.getJob job.id = some job → job.status = .failed →
      Retries job.id now broker plan s := by
  intro h
  have h := h Sample.failedJob Sample.failedStore 0 (some (.error "timeout")) (fun _ => none) rfl
    rfl
  have hn : ¬Accepts 1 (Sample.failedStore.putJob (retrying Sample.failedJob)) :=
    not_accepts (getJob_putJob_retrying rfl) (by decide)
  exact hn <| h (.inr (.event "timeout")) ⟨_, fun _ => none⟩ rfl

end JobService
