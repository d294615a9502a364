import OsintCore.Control.Except
import OsintCore.Jobs.Service
import OsintCore.Table.Fold

-- What is done to the jobs, one after another.
inductive JobOp
  | transition (id : JobId) (target : JobStatus) (error : Option String) (now : Timestamp)
  | reclaim (now : Timestamp)

namespace JobOp

-- A transition has to succeed.
def step (s : JobStore) : JobOp → Except JobError JobStore
  | transition id target error now =>
    match (JobService.transition id now target error).run s with
    | (.ok _, s')   => .ok s'
    | (.error e, _) => .error e
  | reclaim now => .ok (s.reclaimOrphanCollectRuns now).snd

def run (s : JobStore) (ops : List JobOp) : Except JobError JobStore :=
  ops.foldlM step s

def transitionsTo (id : JobId) (status : JobStatus) : JobOp → Bool
  | transition id' target _ _ => id' = id && target = status
  | reclaim _                 => false

end JobOp

namespace SqliteStore

@[simp]
theorem stored_stored (t : Timestamp) : stored (stored t) = stored t := by
  have h (t : Int) : t / 1000 * 1000 / 1000 * 1000 = t / 1000 * 1000 := by omega
  exact h t

end SqliteStore

variable {s s' : JobStore} {id : JobId} {job job' : Job} {target : JobStatus}
  {error : Option String} {now : Timestamp} {ops : List JobOp}

namespace JobStore

@[simp]
theorem rowOf_rowOf : rowOf (rowOf job) = rowOf job := by
  simp [rowOf, Function.comp_def]

@[simp]
theorem getJob_putJob : (s.putJob job).getJob id =
    if job.id = id then some (rowOf job) else s.getJob id := by
  simp only [getJob, putJob, Table.get?_put, Job.key_eq]
  rfl

theorem getJob_putJob_self : (s.putJob job).getJob job.id = some (rowOf job) :=
  getJob_putJob.trans (if_pos rfl)

theorem getJob_id (h : s.getJob id = some job) : job.id = id :=
  Table.get?_key h

theorem getJob_reclaim : (s.reclaimOrphanCollectRuns now).snd.getJob id =
    (s.getJob id).map fun job => if isOrphan job then reclaimed now job else job := by
  refine Table.get?_foldl_put (f := reclaimed now) (p := (isOrphan ·)) (fun _ => rfl)
    (fun job => ?_) id
  simp [Table.mem_def]

end JobStore

namespace JobService

theorem run_get : (get id).run s =
    match s.getJob id with
    | some job => (.ok job, s)
    | none     => (.error (.notFound id), s) := by
  simp only [get, Resumption.run_bind, Resumption.run_read]
  cases s.getJob id <;> rfl

theorem run_transition : (transition id now target error).run s =
    match s.getJob id with
    | none     => (.error (.notFound id), s)
    | some job =>
      match applyTransition job target error now with
      | .ok job  => (.ok job, s.putJob job)
      | .error e => (.error e, s) := by
  simp only [transition, Resumption.run_bind, run_get]
  cases s.getJob id
  case none => rfl
  case some job =>
    dsimp only
    cases applyTransition job target error now <;> rfl

theorem run_dispatch_of_not (h : s.getJob id = some job) (hd : job.isDispatchable = false)
    (broker : Broker) :
    (dispatch id broker).run s = (.error (.notDispatchable id job.status), s) := by
  simp only [dispatch, Resumption.run_bind, run_get, h, hd]
  rfl

end JobService

-- What an accepted transition makes of a job.
theorem applyTransition_eq_ok : applyTransition job target error now = .ok job' ↔
    canTransition job.status target ∧ job' = { job with
      status      := target
      startedAt   := if target = .running then job.startedAt <|> some now else job.startedAt
      completedAt :=
        if target.isPurgeEligible then some now
        else if target = .retrying then none
        else job.completedAt
      retryCount  := if target = .retrying then job.retryCount + 1 else job.retryCount
      error       :=
        if target = .failed ∨ target = .cancelled then error
        else if target = .completed ∨ target = .running then none
        else job.error } := by
  unfold applyTransition
  by_cases h : canTransition job.status target
  case neg => simp [h]
  case pos =>
    rw [if_pos h, Except.ok.injEq, eq_comm (b := job')]
    simp only [h, true_and]
    cases target
    case running => cases hs : job.startedAt <;> simp [JobStatus.isPurgeEligible, hs]
    all_goals simp [JobStatus.isPurgeEligible]

theorem applyTransition_kept (h : applyTransition job target error now = .ok job') :
    job'.id = job.id ∧ job'.status = target ∧ job'.parameters = job.parameters := by
  have ⟨_, he⟩ := applyTransition_eq_ok.mp h
  subst he
  exact ⟨rfl, rfl, rfl⟩

-- The fields of a job agree with its status and with what has been done.
structure Job.Accounts (job : Job) (ops : List JobOp) : Prop where
  completed : job.completedAt.isSome ↔ job.status ∈ [.completed, .failed, .cancelled]
  started   : job.startedAt.isSome ↔ ∃ op ∈ ops, op.transitionsTo job.id .running
  retried   : job.retryCount = .ofNat (ops.countP (·.transitionsTo job.id .retrying))
  error     : job.status ∈ [.queued, .running, .completed] → job.error = none

namespace Job.Accounts

theorem of_applyTransition (h : job.Accounts ops)
    (ht : applyTransition job target error now = .ok job') :
    job'.Accounts (ops ++ [.transition job.id target error now]) := by
  have ⟨hc, he⟩ := applyTransition_eq_ok.mp ht
  subst he
  refine ⟨?_, ?_, ?_, ?_⟩
  case refine_1 =>
    have := h.completed
    cases hs : job.status <;> cases target <;> simp_all [canTransition, JobStatus.isPurgeEligible]
  case refine_2 =>
    have := h.started
    by_cases hr : target = .running
    case pos => cases job.startedAt <;> simp [hr, JobOp.transitionsTo]
    case neg => simp [hr, this, JobOp.transitionsTo]
  case refine_3 =>
    by_cases hr : target = .retrying
    case pos => simp [hr, h.retried, JobOp.transitionsTo, Int32.ofNat_add]
    case neg => simp [hr, h.retried, JobOp.transitionsTo]
  case refine_4 =>
    have := h.error
    cases hs : job.status <;> cases target <;> simp_all [canTransition]

theorem of_other (h : job.Accounts ops) (op : JobOp)
    (ho : ∀ status, op.transitionsTo job.id status = false) : job.Accounts (ops ++ [op]) := by
  refine ⟨h.completed, ?_, ?_, h.error⟩
  case refine_1 => simp [h.started, ho]
  case refine_2 => simp [h.retried, ho]

theorem of_reclaimed (h : job.Accounts ops) :
    (JobStore.reclaimed now job).Accounts (ops ++ [.reclaim now]) := by
  have h := h.of_other (.reclaim now) fun _ => rfl
  exact ⟨by simp [JobStore.reclaimed], h.started, h.retried, by simp [JobStore.reclaimed]⟩

theorem rowOf (h : job.Accounts ops) : (JobStore.rowOf job).Accounts ops :=
  ⟨by simpa [JobStore.rowOf] using h.completed, by simpa [JobStore.rowOf] using h.started,
    h.retried, h.error⟩

end Job.Accounts

namespace JobStore

-- The row of a job to which `ops` have been done.
structure Holds (s : JobStore) (id : JobId) (ops : List JobOp) (job : Job) : Prop where
  found    : s.getJob id = some job
  accounts : job.Accounts ops
  rounded  : rowOf job = job

namespace Holds

theorem started_rounded (h : s.Holds id ops job) :
    job.startedAt.map SqliteStore.stored = job.startedAt :=
  congrArg Job.startedAt h.rounded

variable (s id now) in
theorem create (jobType : String) (correlationId : Option ObjectId) (parameters : Option Json) :
    ∃ job, ((JobService.create id now jobType correlationId parameters).exec s).Holds id []
      job := by
  refine ⟨_, getJob_putJob_self, ⟨?_, ?_, ?_, ?_⟩, rowOf_rowOf⟩
  all_goals simp [rowOf]

theorem of_transition {id' : JobId} (h : s.Holds id ops job)
    (hs : JobOp.step s (.transition id' target error now) = .ok s') :
    ∃ job', s'.Holds id (ops ++ [.transition id' target error now]) job' ∧
      ∀ t, job.startedAt = some t → job'.startedAt = some t := by
  simp only [JobOp.step, JobService.run_transition] at hs
  cases hg : s.getJob id'
  case none => simp [hg] at hs
  case some j =>
    cases ha : applyTransition j target error now
    case error e => simp [hg, ha] at hs
    case ok j' =>
      simp only [hg, ha, Except.ok.injEq] at hs
      subst hs
      have hj := (applyTransition_eq_ok.mp ha).right
      have hid : j'.id = id' := (applyTransition_kept ha).left.trans (getJob_id hg)
      by_cases hi : id' = id
      case neg =>
        refine ⟨job, ⟨?_, h.accounts.of_other _ fun status => ?_, h.rounded⟩, fun _ h => h⟩
        case refine_1 => rw [getJob_putJob, if_neg (hid ▸ hi), h.found]
        case refine_2 => simp [JobOp.transitionsTo, getJob_id h.found, hi]
      case pos =>
        subst hi
        obtain rfl : job = j := Option.some.inj <| h.found.symm.trans hg
        refine ⟨rowOf j', ⟨?_, ?_, rowOf_rowOf⟩, fun t ht => ?_⟩
        case refine_1 => rw [getJob_putJob, if_pos hid]
        case refine_2 => exact getJob_id hg ▸ (h.accounts.of_applyTransition ha).rowOf
        case refine_3 =>
          have hst : j'.startedAt = some t := by rw [hj]; simp [ht]
          have hr := h.started_rounded
          rw [ht] at hr
          rw [rowOf, hst]
          exact hr

theorem of_reclaim (h : s.Holds id ops job) :
    ∃ job', (s.reclaimOrphanCollectRuns now).snd.Holds id (ops ++ [.reclaim now]) job' ∧
      ∀ t, job.startedAt = some t → job'.startedAt = some t := by
  by_cases ho : isOrphan job
  case pos =>
    refine ⟨reclaimed now job, ⟨?_, h.accounts.of_reclaimed, ?_⟩, fun _ h => h⟩
    case refine_1 => simp [getJob_reclaim, h.found, ho]
    case refine_2 =>
      have := congrArg Job.createdAt h.rounded
      have := h.started_rounded
      simp_all [rowOf, reclaimed]
  case neg =>
    refine ⟨job, ⟨?_, h.accounts.of_other _ fun _ => rfl, h.rounded⟩, fun _ h => h⟩
    simp [getJob_reclaim, h.found, ho]

theorem step {op : JobOp} (h : s.Holds id ops job) (hs : op.step s = .ok s') :
    ∃ job', s'.Holds id (ops ++ [op]) job' ∧
      ∀ t, job.startedAt = some t → job'.startedAt = some t := by
  cases op
  case transition => exact h.of_transition hs
  case reclaim    => exact Except.ok.inj hs ▸ h.of_reclaim

theorem run {ops' : List JobOp} (h : s.Holds id ops job) (hs : JobOp.run s ops' = .ok s') :
    ∃ job', s'.Holds id (ops ++ ops') job' ∧
      ∀ t, job.startedAt = some t → job'.startedAt = some t := by
  induction ops' generalizing s ops job
  case nil =>
    obtain rfl := Except.ok.inj hs
    exact ⟨job, by simpa using h, fun _ h => h⟩
  case cons op l hi =>
    have ⟨s₁, h₁, hl⟩ := Except.bind_eq_ok.mp hs
    have ⟨j, hj, ht⟩ := h.step h₁
    have ⟨job', hk, ht'⟩ := hi hj hl
    exact ⟨job', by simpa using hk, fun t h => ht' t (ht t h)⟩

end Holds

theorem mem_purged {filter : JobPurgeFilter} (h : job ∈ s.purged filter) :
    job ∈ s.jobs ∧ filter.selects job := by
  have h := List.mem_mergeSort.mp (List.mem_of_mem_take h)
  simpa [Table.mem_def] using h

end JobStore

theorem JobPurgeFilter.eligible_of_validate {filter : JobPurgeFilter}
    (h : filter.validate = .ok ()) : ∀ status ∈ filter.statuses, status.isPurgeEligible := by
  have hs : filter.validateScope = .ok () := by
    cases hv : filter.validateScope
    case error e => simp [validate, hv, bind, Except.bind] at h
    case ok u    => rfl
  have hf : filter.statuses.forM (fun status =>
      if status.isPurgeEligible then Except.ok () else .error (notEligible status)) = .ok () := by
    by_cases ht : (Text.trim filter.jobType).isEmpty
    case pos => simp [validateScope, ht, bind, Except.bind] at hs
    case neg =>
      by_cases he : filter.statuses.isEmpty
      case pos => simp [validateScope, ht, he, bind, Except.bind] at hs
      case neg => simpa [validateScope, ht, he, bind, Except.bind] using hs
  intro status hm
  by_contra hn
  simpa [hn] using Except.of_forM hf status hm

namespace JobStore

-- What a purge deletes has ended.
theorem eligible_of_purgeJobs {filter : JobPurgeFilter} {n : Nat}
    (h : s.purgeJobs filter = .ok (n, s')) (hj : s.getJob id = some job)
    (hd : s'.getJob id ≠ some job) : job.status.isPurgeEligible := by
  simp only [purgeJobs, Except.bind_eq_ok, Except.pure_eq_ok, Prod.mk.injEq] at h
  obtain ⟨_, hv, _, hs⟩ := h
  by_contra hn
  apply hd
  rw [← hs]
  have hall : (s.purged filter).all fun row => row.id ≠ job.id := by
    rw [List.all_eq_true]
    intro row hr
    obtain ⟨hm, hsel⟩ := mem_purged hr
    refine decide_eq_true fun he => hn ?_
    obtain rfl : row = job := Table.eq_of_key_eq hm (Table.get?_mem hj) he
    simp only [JobPurgeFilter.selects, Bool.and_eq_true, List.contains_iff_mem] at hsel
    exact JobPurgeFilter.eligible_of_validate hv _ hsel.left.right
  change (s.jobs.filter _).get? id = _
  rw [Table.get?_filter, show s.jobs.get? id = some job from hj, Option.filter_some, if_pos hall]

end JobStore

-- Whatever has been done to a job since it was created, its fields agree with it, its first start
-- is kept, and no purge deletes it while it can be dispatched or runs. Of a retry counter of 32
-- bits, what can be told is the number of retries up to a multiple of 2³².
theorem run_accounts (s : JobStore) (id : JobId) (now : Timestamp) (jobType : String)
    (correlationId : Option ObjectId) (parameters : Option Json) {ops ops' : List JobOp}
    {s₁ s₂ : JobStore}
    (h₁ : JobOp.run ((JobService.create id now jobType correlationId parameters).exec s) ops =
      .ok s₁)
    (h₂ : JobOp.run s₁ ops' = .ok s₂) :
    ∃ job₁ job₂, s₁.getJob id = some job₁ ∧ s₂.getJob id = some job₂ ∧
      job₁.Accounts ops ∧ job₂.Accounts (ops ++ ops') ∧
      (∀ t, job₁.startedAt = some t → job₂.startedAt = some t) ∧
      ∀ filter n s₃, s₂.purgeJobs filter = .ok (n, s₃) → s₃.getJob id ≠ some job₂ →
        job₂.status ≠ .running ∧ ∀ broker, (JobService.dispatch id broker).run s₂ =
          (.error (.notDispatchable id job₂.status), s₂) := by
  have ⟨_, h⟩ := JobStore.Holds.create s id now jobType correlationId parameters
  have ⟨job₁, hj, _⟩ := h.run h₁
  have ⟨job₂, hk, ht⟩ := hj.run h₂
  refine ⟨job₁, job₂, hj.found, hk.found, by simpa using hj.accounts, by simpa using hk.accounts,
    ht, fun filter n s₃ hp hd => ?_⟩
  have he := JobStore.eligible_of_purgeJobs hp hk.found hd
  refine ⟨fun hr => ?_, fun broker => JobService.run_dispatch_of_not hk.found ?_ broker⟩
  case refine_1 => simp [hr, JobStatus.isPurgeEligible] at he
  case refine_2 =>
    cases hs : job₂.status <;> simp_all [JobStatus.isPurgeEligible, Job.isDispatchable]

namespace Sample

def failing : List JobOp :=
  [.transition 1 .running none 1000, .transition 1 .failed (some "timeout") 2000]

def retrying : List JobOp :=
  [.transition 1 .retrying none 3000, .transition 1 .running none 4000]

def retries (n : Nat) : List JobOp :=
  .transition 1 .running none 1000 :: (List.replicate n retrying).flatten

def created : JobStore :=
  (JobService.create 1 0 "collect" none none).exec {}

def oldJobs : JobPurgeFilter where
  jobType   := "collect"
  statuses  := [.failed]
  olderThan := 9000
  limit     := 1

def purgedWhileRetriable (s : JobStore) : Bool :=
  (s.getJob 1).isSome && (s.purgeJobs oldJobs).toOption.any (fun r => (r.snd.getJob 1).isNone) &&
    ((JobService.retry 1 5000 none).run s).fst.isOk

end Sample

theorem run_accounts_retrying : ∃ s₁ s₂, JobOp.run Sample.created Sample.failing = .ok s₁ ∧
    JobOp.run s₁ Sample.retrying = .ok s₂ ∧ ∃ job₁ job₂, s₁.getJob 1 = some job₁ ∧
      s₂.getJob 1 = some job₂ ∧ job₁.Accounts Sample.failing ∧
      job₂.Accounts (Sample.failing ++ Sample.retrying) := by
  have ⟨s₂, h⟩ : ∃ s₂, (JobOp.run Sample.created Sample.failing >>= fun s₁ =>
      JobOp.run s₁ Sample.retrying) = .ok s₂ :=
    Except.exists_of_isOk (by decide +kernel)
  have ⟨s₁, h₁, h₂⟩ := Except.bind_eq_ok.mp h
  have ⟨job₁, job₂, hf, hg, ha, hb, _⟩ := run_accounts {} 1 0 "collect" none none h₁ h₂
  exact ⟨s₁, s₂, h₁, h₂, job₁, job₂, hf, hg, ha, hb⟩

namespace JobOp

variable (error now) in
theorem exists_step (h : s.getJob id = some job) (hc : canTransition job.status target) :
    ∃ s', step s (.transition id target error now) = .ok s' ∧
      ∃ job', s'.getJob id = some job' ∧ job'.status = target := by
  have ⟨j, ha⟩ : ∃ j, applyTransition job target error now = .ok j :=
    ⟨_, applyTransition_eq_ok.mpr ⟨hc, rfl⟩⟩
  have ⟨hi, hs, _⟩ := applyTransition_kept ha
  refine ⟨s.putJob j, by simp only [step, JobService.run_transition, h, ha], JobStore.rowOf j,
    ?_, ?_⟩
  case refine_1 => rw [JobStore.getJob_putJob, if_pos (hi.trans (JobStore.getJob_id h))]
  case refine_2 => exact hs

theorem exists_run_retrying (n : Nat) (h : s.getJob 1 = some job) (hr : job.status = .running) :
    ∃ s', run s (List.replicate n Sample.retrying).flatten = .ok s' := by
  induction n generalizing s job
  case zero => exact ⟨s, rfl⟩
  case succ n hi =>
    have hc : canTransition job.status .retrying := hr ▸ rfl
    have ⟨s₁, h₁, j₁, hj₁, hs₁⟩ := exists_step none 3000 h hc
    have hc : canTransition j₁.status .running := hs₁ ▸ rfl
    have ⟨s₂, h₂, j₂, hj₂, hs₂⟩ := exists_step none 4000 hj₁ hc
    have ⟨s', h'⟩ := hi hj₂ hs₂
    refine ⟨s', ?_⟩
    simp only [List.replicate_succ, List.flatten_cons, run, List.foldlM_append, Except.bind_eq_ok]
    exact ⟨s₂, Except.bind_eq_ok.mpr ⟨s₁, h₁, Except.bind_eq_ok.mpr ⟨s₂, h₂, rfl⟩⟩, h'⟩

theorem exists_run_retries (n : Nat) : ∃ s', run Sample.created (Sample.retries n) = .ok s' := by
  have ⟨job, hj⟩ : ∃ job, Sample.created.getJob 1 = some job ∧ job.status = .queued :=
    ⟨_, JobStore.getJob_putJob_self, rfl⟩
  have hc : canTransition job.status .running := hj.right ▸ rfl
  have ⟨s₁, h₁, j₁, hj₁, hs₁⟩ := exists_step none 1000 hj.left hc
  have ⟨s', h'⟩ := exists_run_retrying n hj₁ hs₁
  exact ⟨s', Except.bind_eq_ok.mpr ⟨s₁, h₁, h'⟩⟩

theorem countP_retries (n : Nat) :
    (Sample.retries n).countP (·.transitionsTo 1 .retrying) = n := by
  simp [Sample.retries, List.countP_flatten, Sample.retrying, transitionsTo]

end JobOp

-- After 2³¹ retries the counter is negative, and a purge deletes a job which failed although it
-- could be retried.
theorem not_run_accounts :
    (¬∀ (s : JobStore) id now jobType correlationId parameters ops s₁ job,
      JobOp.run ((JobService.create id now jobType correlationId parameters).exec s) ops = .ok s₁ →
        s₁.getJob id = some job →
          job.retryCount.toInt = ops.countP (·.transitionsTo id .retrying)) ∧
      ¬∀ (s : JobStore) id now jobType correlationId parameters ops s₁ filter n s₂ job,
        JobOp.run ((JobService.create id now jobType correlationId parameters).exec s) ops =
            .ok s₁ →
          s₁.getJob id = some job → s₁.purgeJobs filter = .ok (n, s₂) →
            s₂.getJob id ≠ some job → ∀ now broker,
              ¬((JobService.retry id now broker).run s₁).fst.isOk := by
  constructor
  case left =>
    intro h
    obtain ⟨s₁, h₁⟩ := JobOp.exists_run_retries (2 ^ 31)
    obtain ⟨_, hc⟩ := JobStore.Holds.create {} 1 0 "collect" none none
    obtain ⟨job, hj, _⟩ := hc.run h₁
    have ht := h {} 1 0 "collect" none none _ s₁ job h₁ hj.found
    have hr := hj.accounts.retried
    rw [JobStore.getJob_id hj.found, List.nil_append, JobOp.countP_retries] at hr
    rw [hr, JobOp.countP_retries] at ht
    exact absurd ht (by decide)
  case right =>
    intro h
    have hc : (JobOp.run Sample.created Sample.failing).toOption.any
        Sample.purgedWhileRetriable := by
      decide +kernel
    obtain ⟨s₁, h₁, hc⟩ := Option.any_eq_true _ _ |>.mp hc
    have h₁ : JobOp.run Sample.created Sample.failing = .ok s₁ := by
      cases hr : JobOp.run Sample.created Sample.failing <;> simp_all [Except.toOption]
    simp only [Sample.purgedWhileRetriable, Bool.and_eq_true] at hc
    obtain ⟨job, hj⟩ := Option.isSome_iff_exists.mp hc.left.left
    cases hp : s₁.purgeJobs Sample.oldJobs
    case error e => simp [hp, Except.toOption] at hc
    case ok r =>
      have hn : r.snd.getJob 1 = none := by simpa [hp, Except.toOption] using hc.left.right
      exact h {} 1 0 "collect" none none _ s₁ _ r.fst r.snd job h₁ hj hp (by simp [hn]) 5000 none
        hc.right
