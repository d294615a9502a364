import OsintCore.Api.Theorems.Pagination
import OsintCore.Connector.Theorems.RunState
import OsintCore.Control.Run
import OsintCore.Jobs.Theorems.Accounts
import OsintCore.Jobs.Worker

open Resumption

def Job.merged (patch : List (String × Json)) (job : Job) : Job :=
  { job with
    parameters := some <| .object <|
      patch.foldl (fun out (name, value) => Json.insert out name value)
        ((job.parameters >>= Json.asObject).getD []) }

-- The job names the object in which its result is.
def Job.HasResult (job : Job) : Prop :=
  ∃ parameters key, job.parameters = some parameters ∧
    parameters.get "result_object_key" = some (.string key)

namespace JobKind

variable {ω : Type} {kind : JobKind} {id : JobId} {s : WorkerState ω} {job : Job}

-- The job waits for a delivery, or one has ended it. Its work has been begun as often as the job
-- has been stored as running.
structure Resting (kind : JobKind) (id : JobId) (s : WorkerState ω) (job : Job) : Prop where
  found   : s.store.getJob id = some job
  status  : job.status ∈ [.queued, .retrying, .completed, .failed]
  counted : s.started id = s.entered id
  result  : kind = .stixExport → job.status = .completed → job.HasResult

structure Busy (id : JobId) (s : WorkerState ω) (job : Job) : Prop where
  found   : s.store.getJob id = some job
  status  : job.status = .running
  counted : s.started id = s.entered id

-- What holds after each access of a delivery: unless the job is stored as running, it rests.
def Keeps (kind : JobKind) (id : JobId) (s : WorkerState ω) : Prop :=
  s.store.isRunning id ∨ ∃ job, kind.Resting id s job

def Ended (kind : JobKind) (id : JobId) (_ : JobDispatchOutcome) (s : WorkerState ω) : Prop :=
  ∃ job, kind.Resting id s job ∧ job.status ∈ [.completed, .failed]

theorem Busy.keeps (h : Busy id s job) : kind.Keeps id s :=
  .inl <| by simp [JobStore.isRunning, h.found, h.status]

theorem Resting.keeps (h : kind.Resting id s job) : kind.Keeps id s :=
  .inr ⟨job, h⟩

theorem Resting.not_isRunning (h : kind.Resting id s job) : s.store.isRunning id = false := by
  have := h.status
  cases hs : job.status <;> simp_all [JobStore.isRunning, h.found]

end JobKind

namespace WorkerState

variable {ω : Type} {s : WorkerState ω} {id : JobId} {job : Job}

@[simp]
theorem setStore_self : s.setStore s.store = s := by
  have : s.entered = (s.setStore s.store).entered := by
    funext id
    simp only [setStore]
    split_ifs with h
    case pos => exact (h.right h.left).elim
    case neg => rfl
  cases s
  simp_all [setStore]

@[simp]
theorem store_setStore (store : JobStore) : (s.setStore store).store = store :=
  rfl

@[simp]
theorem started_setStore (store : JobStore) : (s.setStore store).started = s.started :=
  rfl

theorem entered_setStore (store : JobStore) : (s.setStore store).entered id =
    if store.isRunning id ∧ ¬s.store.isRunning id then s.entered id + 1 else s.entered id :=
  rfl

end WorkerState

namespace Resumption

variable {ω ε α β : Type} {G : WorkerState ω → WorkerState ω → Prop}
  {Q : β → WorkerState ω → Prop} {s : WorkerState ω} {id : JobId} {now : Timestamp}
  {target : JobStatus} {error : Option String}
  {f : Except JobError Job → Resumption (WorkerState ω) ε β}

theorem onJobs_get_bind : (onJobs (JobService.get id) >>= f) =
    step (fun s => s.setStore s.store) fun s =>
      match s.store.getJob id with
      | some job => f (.ok job)
      | none     => f (.error (.notFound id)) := by
  refine congrArg (step _) (funext fun s => ?_)
  cases hg : s.store.getJob id <;> simp only [hg] <;> rfl

theorem onJobs_transition_bind : (onJobs (JobService.transition id now target error) >>= f) =
    step (fun s => s.setStore s.store) fun s =>
      match s.store.getJob id with
      | none     => f (.error (.notFound id))
      | some job =>
        match applyTransition job target error now with
        | .error e => f (.error e)
        | .ok job  => step (fun s => s.setStore (s.store.putJob job)) fun _ => f (.ok job) := by
  refine congrArg (step _) (funext fun s => ?_)
  cases hg : s.store.getJob id
  case none => simp only [hg]; rfl
  case some job =>
    simp only [hg]
    change bind f (zoom _ _ (bind (fun job => JobService.put job >>= fun _ => pure job)
      (ofExcept (applyTransition job target error now)))).outcome = _
    cases applyTransition job target error now <;> rfl

theorem onJobs_mergeParameters_bind {patch : List (String × Json)} :
    (onJobs (JobService.mergeParameters id patch) >>= f) =
    step (fun s => s.setStore s.store) fun s =>
      match s.store.getJob id with
      | none     => f (.error (.notFound id))
      | some job =>
        let job := job.merged patch
        step (fun s => s.setStore (s.store.putJob job)) fun _ => f (.ok job) := by
  refine congrArg (step _) (funext fun s => ?_)
  cases hg : s.store.getJob id <;> simp only [hg] <;> rfl

theorem respects_rereading {next : WorkerState ω → Resumption (WorkerState ω) ε β} (hg : G s s)
    (h : (next s).Respects Eq G Q s) :
    (step (fun s => s.setStore s.store) next).Respects Eq G Q s := by
  rintro _ rfl
  simpa only [WorkerState.setStore_self] using ⟨hg, h⟩

end Resumption

namespace JobKind

variable {ω α : Type} {kind : JobKind} {id : JobId} {s : WorkerState ω} {job : Job}
  {target : JobStatus} {error : Option String} {now : Timestamp}

-- Each access of a delivery keeps what holds between the accesses.
def Guards (kind : JobKind) (id : JobId) (s s' : WorkerState ω) : Prop :=
  kind.Keeps id s → kind.Keeps id s'

theorem respects_conclude (h : Busy id s job) (ht : target ∈ [.completed, .failed])
    (hr : kind = .stixExport → target = .completed → job.HasResult) (outcome : JobDispatchOutcome) :
    (conclude id now target error outcome).Respects Eq (kind.Guards id) (kind.Ended id) s := by
  obtain ⟨j, ha⟩ : ∃ j, applyTransition job target error now = .ok j := by
    refine ⟨_, applyTransition_eq_ok.mpr ⟨?_, rfl⟩⟩
    cases target <;> simp_all [h.status, canTransition]
  obtain ⟨hi, hs, hp⟩ := applyTransition_kept ha
  have hf : (s.store.putJob j).getJob id = some (JobStore.rowOf j) := by
    rw [JobStore.getJob_putJob, if_pos (hi.trans (JobStore.getJob_id h.found))]
  have hn : (s.store.putJob j).isRunning id = false := by
    simp only [JobStore.isRunning, hf, Option.any_some, JobStore.rowOf, hs]
    cases target <;> simp_all
  have hrest : kind.Resting id (s.setStore (s.store.putJob j)) (JobStore.rowOf j) := by
    refine ⟨hf, ?_, ?_, fun hk hc => ?_⟩
    case refine_1 => change j.status ∈ _; cases target <;> simp_all
    case refine_2 => simp [WorkerState.entered_setStore, hn, h.counted]
    case refine_3 =>
      obtain ⟨parameters, key, hpar, hkey⟩ := hr hk (hs.symm.trans hc)
      exact ⟨parameters, key, hp.trans hpar, hkey⟩
  have he : j.status ∈ [.completed, .failed] := hs ▸ ht
  unfold conclude
  rw [onJobs_transition_bind]
  refine respects_rereading (fun hk => hk) ?_
  simp only [h.found, ha]
  rintro _ rfl
  exact ⟨fun _ => hrest.keeps, respects_pure fun _ hs => hs ▸ ⟨_, hrest, he⟩⟩

-- A delivery of a job which waits does its work, and one of a job which has ended does nothing.
theorem respects_runJob {t : Readings} {work : Delivery ω (Except String α)}
    {finish : α → Delivery ω JobDispatchOutcome} (h : kind.Resting id s job)
    (hw : ∀ s job, Busy id s job →
      work.Respects Eq (kind.Guards id) (fun _ s => ∃ job, Busy id s job) s)
    (hf : ∀ a s job, Busy id s job →
      (finish a).Respects Eq (kind.Guards id) (kind.Ended id) s) :
    (runJob id t work finish).Respects Eq (kind.Guards id) (kind.Ended id) s := by
  unfold runJob
  rw [onJobs_transition_bind]
  refine respects_rereading (fun hk => hk) ?_
  simp only [h.found]
  cases ha : applyTransition job .running none t.running
  case error e =>
    have he : job.status ∈ [.completed, .failed] := by
      have hs := h.status
      cases hj : job.status <;> simp_all [applyTransition, canTransition]
    exact respects_pure fun _ hs => hs ▸ ⟨job, h, he⟩
  case ok j =>
    obtain ⟨hi, hs, _⟩ := applyTransition_kept ha
    have hfound : (s.store.putJob j).getJob id = some (JobStore.rowOf j) := by
      rw [JobStore.getJob_putJob, if_pos (hi.trans (JobStore.getJob_id h.found))]
    have hrun : (s.store.putJob j).isRunning id := by
      simp [JobStore.isRunning, hfound, JobStore.rowOf, hs]
    rintro _ rfl
    refine ⟨fun _ => .inl hrun, ?_⟩
    rintro _ rfl
    refine ⟨fun _ => .inl hrun, ?_⟩
    have hb : Busy id ((s.setStore (s.store.putJob j)).start id) (JobStore.rowOf j) := by
      refine ⟨hfound, hs, ?_⟩
      simp [WorkerState.start, WorkerState.entered_setStore, hrun, h.not_isRunning, h.counted]
    refine Respects.bind (x := work) (fun _ => rfl) (hw _ _ hb) fun r s hb => ?_
    obtain ⟨job, hb⟩ := hb
    cases r
    case ok a      => exact hf a s job hb
    case error err => exact respects_conclude hb (by simp) (by simp) _

theorem respects_onWorld (x : Resumption ω String α) (h : Busy id s job) :
    (onWorld x : Delivery ω _).Respects Eq (kind.Guards id) (fun _ s => ∃ job, Busy id s job)
      s := by
  refine (respects_zoom (P := (Busy id · job)) x (fun _ _ h => ?_) (fun _ _ _ h _ => h.keeps) h)
    |>.mono fun _ _ h => ⟨job, h⟩
  exact ⟨h.found, h.status, h.counted⟩

theorem respects_reading {f : Except JobError Job → Delivery ω (Except String α)}
    (h : Busy id s job)
    (hf : (f (.ok job)).Respects Eq (kind.Guards id) (fun _ s => ∃ job, Busy id s job) s) :
    (onJobs (JobService.get id) >>= f).Respects Eq (kind.Guards id)
      (fun _ s => ∃ job, Busy id s job) s := by
  rw [onJobs_get_bind]
  refine respects_rereading (fun hk => hk) ?_
  simpa only [h.found] using hf

-- The parameters are filled in before the job is completed.
theorem respects_processExport {work : JobWork ω} {t : Readings} {payload : Json}
    (hi : jobIdOf payload = some id) (h : Resting .stixExport id s job) :
    (StixWorker.processExport work t payload).Respects Eq (Guards .stixExport id)
      (Ended .stixExport id) s := by
  simp only [StixWorker.processExport, hi]
  refine respects_runJob h (fun s job hb => respects_reading hb (respects_onWorld _ hb))
    fun key s job hb => ?_
  rw [onJobs_mergeParameters_bind]
  refine respects_rereading (fun hk => hk) ?_
  simp only [hb.found]
  rintro _ rfl
  have hid := JobStore.getJob_id hb.found
  have hfound : (s.store.putJob (job.merged [("result_object_key", .string key)])).getJob id =
      some (JobStore.rowOf (job.merged [("result_object_key", .string key)])) :=
    JobStore.getJob_putJob.trans (if_pos hid)
  have hrun : s.store.isRunning id := by simp [JobStore.isRunning, hb.found, hb.status]
  have hb' : Busy id
      (s.setStore (s.store.putJob (job.merged [("result_object_key", .string key)])))
      (JobStore.rowOf (job.merged [("result_object_key", .string key)])) := by
    refine ⟨hfound, hb.status, ?_⟩
    simp [WorkerState.entered_setStore, hrun, hb.counted]
  refine ⟨fun _ => hb'.keeps, respects_conclude hb' (by simp) (fun _ _ => ?_) _⟩
  exact ⟨_, key, rfl, by simp [Json.get, Json.asObject, Json.lookup_insert]⟩

theorem respects_process {work : JobWork ω} {pageSize : Nat} {t : Readings} {payload : Json}
    (ht : jobTypeOf payload = kind.jobType) (hi : jobIdOf payload = some id)
    (h : kind.Resting id s job) :
    (kind.process work pageSize t payload).Respects Eq (kind.Guards id) (kind.Ended id) s := by
  cases kind
  case graphRebuild =>
    simp only [process, GraphWorker.processDispatchedJob, ht, jobType, ne_eq, not_true, if_false,
      hi]
    exact respects_runJob h (fun s job hb => respects_onWorld _ hb)
      fun _ s job hb => respects_conclude hb (by simp) (by simp) _
  case stixImport =>
    simp only [process, StixWorker.processDispatchedJob, ht, jobType, if_true, hi]
    exact respects_runJob h (fun s job hb => respects_reading hb (respects_onWorld _ hb))
      fun _ s job hb => respects_conclude hb (by simp) (by simp) _
  case stixExport =>
    have hn : StixWorker.jobTypeExport ≠ StixWorker.jobTypeImport := by decide
    simp only [process, StixWorker.processDispatchedJob, ht, jobType, if_neg hn, if_true]
    exact respects_processExport hi h

theorem exec_runJob_of_refused {t : Readings} {work : Delivery ω (Except String α)}
    {finish : α → Delivery ω JobDispatchOutcome} (hf : s.store.getJob id = some job)
    (hs : job.status ∈ [.completed, .cancelled]) : (runJob id t work finish).exec s = s := by
  have ha : applyTransition job .running none t.running =
      .error (.invalidTransition job.status .running) := by
    cases hj : job.status <;> simp_all [applyTransition, canTransition]
  unfold runJob
  rw [onJobs_transition_bind]
  simp only [exec, Resumption.run, WorkerState.setStore_self, hf, ha]
  rfl

theorem exec_process_of_refused {work : JobWork ω} {pageSize : Nat} {t : Readings} {payload : Json}
    (ht : jobTypeOf payload = kind.jobType) (hi : jobIdOf payload = some id)
    (hf : s.store.getJob id = some job) (hs : job.status ∈ [.completed, .cancelled]) :
    (kind.process work pageSize t payload).exec s = s := by
  cases kind
  case graphRebuild =>
    simp only [process, GraphWorker.processDispatchedJob, ht, jobType, ne_eq, not_true, if_false,
      hi]
    exact exec_runJob_of_refused hf hs
  case stixImport =>
    simp only [process, StixWorker.processDispatchedJob, ht, jobType, if_true, hi]
    exact exec_runJob_of_refused hf hs
  case stixExport =>
    have hn : StixWorker.jobTypeExport ≠ StixWorker.jobTypeImport := by decide
    simp only [process, StixWorker.processDispatchedJob, ht, jobType, if_neg hn, if_true,
      StixWorker.processExport, hi]
    exact exec_runJob_of_refused hf hs

end JobKind

theorem jobIdOf_payload {job : Job} (h : job.id < 2 ^ 128) : jobIdOf job.payload = some job.id := by
  have hg : job.payload.get "job_id" = some (.string job.id.toText) := rfl
  simp only [jobIdOf, hg, Option.bind_eq_bind, Option.bind_some, Json.asStr, Uuid.parseStr_toText h]

-- A delivery which has run to its end has ended the job, and the work has been begun once for each
-- time the job was stored as running. An export which is completed names its result. Once the job
-- is completed or cancelled, a delivery changes nothing.
structure Recovered {ω : Type} (kind : JobKind) (id : JobId)
    (process : Readings → Delivery ω JobDispatchOutcome) (c : Deliveries ω) : Prop where
  ended  : ∀ o, c.current = some (.done o) → ∃ job, c.state.store.getJob id = some job ∧
    job.status ∈ [.completed, .failed]
  once   : ∀ o, c.current = some (.done o) → c.state.started id = c.state.entered id
  result : ∀ job, c.state.store.getJob id = some job → kind = .stixExport →
    job.status = .completed → job.HasResult
  idle   : ∀ job t, c.state.store.getJob id = some job → job.status ∈ [.completed, .cancelled] →
    (process t).exec c.state = c.state

namespace Deliveries

variable {ω : Type} {kind : JobKind} {id : JobId}
  {process : Readings → Delivery ω JobDispatchOutcome} {c : Deliveries ω} {event : DeliveryEvent}

-- What holds between two events if no delivery is cut off while the job is stored as running.
def Sound (kind : JobKind) (id : JobId) (c : Deliveries ω) : Prop :=
  match c.current with
  | none   => ∃ job, kind.Resting id c.state job
  | some x => kind.Keeps id c.state ∧ x.Respects Eq (kind.Guards id) (kind.Ended id) c.state

theorem Sound.step (h : c.Sound kind id)
    (hp : ∀ t s job, kind.Resting id s job →
      (process t).Respects Eq (kind.Guards id) (kind.Ended id) s)
    (hc : event = .crash → ¬c.state.store.isRunning id) : (c.step process event).Sound kind id := by
  have ⟨s, current⟩ := c
  cases event
  case deliver t =>
    cases current
    case none =>
      have ⟨job, hr⟩ := h
      exact ⟨hr.keeps, hp t s job hr⟩
    case some x =>
      cases x
      case done o =>
        have ⟨job, hr, _⟩ := h.right s rfl
        exact ⟨hr.keeps, hp t s job hr⟩
      case fail e => exact e.elim
      case step   => exact h
  case advance =>
    cases current
    case none   => exact h
    case some x =>
      have ⟨hg, hx⟩ := h.right.advance (fun _ => rfl) fun _ hk => hk
      exact ⟨hg h.left, hx⟩
  case crash =>
    cases current
    case none   => exact h
    case some x => exact h.left.resolve_left (hc rfl)

theorem Sound.recovered (h : c.Sound kind id)
    (hp : ∀ s job t, s.store.getJob id = some job → job.status ∈ [.completed, .cancelled] →
      (process t).exec s = s) : Recovered kind id process c := by
  have ⟨s, current⟩ := c
  have hk : kind.Keeps id s := by
    cases current
    case none   => exact h.elim fun _ hr => hr.keeps
    case some x => exact h.left
  refine ⟨fun o ho => ?_, fun o ho => ?_, fun job hj he hs => ?_, hp s⟩
  case refine_1 =>
    obtain rfl : current = some (.done o) := ho
    have ⟨job, hr, he⟩ := h.right s rfl
    exact ⟨job, hr.found, he⟩
  case refine_2 =>
    obtain rfl : current = some (.done o) := ho
    have ⟨job, hr, _⟩ := h.right s rfl
    exact hr.counted
  case refine_3 =>
    obtain hr | ⟨j, hr⟩ := hk
    · simp [JobStore.isRunning, show s.store.getJob id = some job from hj, hs] at hr
    · obtain rfl : j = job := Option.some.inj (hr.found.symm.trans hj)
      exact hr.result he hs

end Deliveries

-- The runs in which no delivery is cut off while the job is stored as running.
theorem run_recovers {ω : Type} (work : JobWork ω) (pageSize : Nat) (kind : JobKind) {job : Job}
    {store : JobStore} (world : ω) {events : List DeliveryEvent}
    (hj : store.getJob job.id = some job) (hi : job.id < 2 ^ 128)
    (hk : job.jobType = kind.jobType) (hs : job.status ∈ [.queued, .retrying])
    (hc : events.Along (Deliveries.step (kind.process work pageSize · job.payload))
      (fun c event => event = .crash → ¬c.state.store.isRunning job.id) ⟨{ store, world }, none⟩) :
    Recovered kind job.id (kind.process work pageSize · job.payload)
      (Deliveries.run (kind.process work pageSize · job.payload) ⟨{ store, world }, none⟩
        events) := by
  have hid := jobIdOf_payload hi
  have h₀ : Deliveries.Sound kind job.id ⟨{ store, world }, none⟩ := by
    refine ⟨job, hj, ?_, rfl, ?_⟩
    all_goals cases hst : job.status <;> simp_all
  have h := hc.foldl (P := Deliveries.Sound kind job.id) h₀ fun c event h hc =>
    h.step (fun t s _ hr => JobKind.respects_process hk hid hr) hc
  exact h.recovered fun s j t hf hst => JobKind.exec_process_of_refused hk hid hf hst

namespace Sample

def exporting : Job where
  id            := 1
  jobType       := "stix_export"
  status        := .queued
  correlationId := none
  createdAt     := 0
  startedAt     := none
  completedAt   := none
  retryCount    := 0
  error         := none
  parameters    := none

def exportStore : JobStore :=
  ({} : JobStore).putJob exporting

def quickWork : JobWork Unit where
  rebuild _      := .done ()
  importBundle _ := .done ()
  exportBundle _ := .done "exports/1.json"

def readings : Readings where
  running := 1000
  ended   := 2000

-- The first delivery is cut off before it has written anything.
def cutEarly : List DeliveryEvent :=
  [.deliver readings, .advance, .crash, .deliver readings] ++ List.replicate 9 .advance

-- The first delivery is cut off after the job has been stored as running.
def cutLate : List DeliveryEvent :=
  [.deliver readings, .advance, .advance, .crash, .deliver readings, .advance]

def exportRun (events : List DeliveryEvent) : Deliveries Unit :=
  Deliveries.run (JobKind.process .stixExport quickWork 1 · exporting.payload)
    ⟨{ store := exportStore, world := () }, none⟩ events

end Sample

theorem run_recovers_cutEarly : Recovered .stixExport 1
    (JobKind.process .stixExport Sample.quickWork 1 · Sample.exporting.payload)
    (Sample.exportRun Sample.cutEarly) :=
  run_recovers Sample.quickWork 1 .stixExport ()
    (show Sample.exportStore.getJob Sample.exporting.id = some Sample.exporting from rfl)
    (by decide) rfl (by decide) (by decide +kernel)

-- The job which is left running is refused by every later delivery.
theorem not_run_recovers : ¬∀ (work : JobWork Unit) (job : Job) (store : JobStore)
    (events : List DeliveryEvent), store.getJob job.id = some job → job.id < 2 ^ 128 →
      job.jobType = JobKind.stixExport.jobType → job.status ∈ [.queued, .retrying] →
        Recovered .stixExport job.id (JobKind.process .stixExport work 1 · job.payload)
          (Deliveries.run (JobKind.process .stixExport work 1 · job.payload)
            ⟨{ store, world := () }, none⟩ events) := by
  intro h
  have h := h Sample.quickWork Sample.exporting Sample.exportStore Sample.cutLate rfl (by decide)
    rfl (by decide)
  have ho : (Sample.exportRun Sample.cutLate).current =
      some (.done (.transitionFailed (some 1))) := rfl
  have ⟨job, hj, hs⟩ := h.ended _ ho
  have hr : (Sample.exportRun Sample.cutLate).state.store.isRunning 1 := by decide +kernel
  have hf : (Sample.exportRun Sample.cutLate).state.store.getJob 1 = some job := hj
  rw [JobStore.isRunning, hf] at hr
  cases hst : job.status <;> simp_all
