import OsintCore.AiGateway.Quota
import OsintCore.Control.Fold

def AiAccount.collectionId : AiAccount → Option CollectionId
  | .collection id _ => some id
  | .system          => none

def AiAccount.runId : AiAccount → Option RunId
  | .collection _ runId => runId
  | .system             => none

-- A call has taken from its run, and has not given back.
def Stage.held : Stage → Bool
  | .reserved | .refused _ | .returned (.ok _)     => true
  | .called | .loaded      | .returned (.error _) => false

def Stage.admitted : Stage → Bool
  | .returned (.ok _) => true
  | _                 => false

def Stage.admittedOn (day : Day) : Stage → Bool
  | .returned (.ok day') => day' = some day
  | _                    => false

def Stage.finished : Stage → Bool
  | .returned _ => true
  | _           => false

namespace AiCall

def holds (runId : RunId) (call : AiCall) : Bool :=
  call.account.runId = some runId ∧ call.stage.held

def admittedIn (runId : RunId) (call : AiCall) : Bool :=
  call.account.runId = some runId ∧ call.stage.admitted

def admittedOn (collectionId : CollectionId) (day : Day) (call : AiCall) : Bool :=
  call.account.collectionId = some collectionId ∧ call.stage.admittedOn day

end AiCall

namespace StoreAiQuota

variable {q : StoreAiQuota} {i : Nat} {call : AiCall} {stage : Stage}

-- The calls which have been admitted for a run, and those for a collection on a day.
def admittedIn (q : StoreAiQuota) (runId : RunId) : Nat :=
  q.calls.countP (·.admittedIn runId)

def admittedOn (q : StoreAiQuota) (collectionId : CollectionId) (day : Day) : Nat :=
  q.calls.countP (·.admittedOn collectionId day)

-- No collection which calls on behalf of the run allows for more calls.
def Allows (q : StoreAiQuota) (runId : RunId) (max : Int) : Prop :=
  ∀ a ∈ q.calls.map (·.account), ∀ c, a = .collection c (some runId) →
    (q.limits c).maxAiCallsPerRun ≤ max

-- The counters count the calls which hold something, and stay below the limits.
structure Balanced (q : StoreAiQuota) : Prop where
  runs   : ∀ r, ((q.perRun r).getD 0) = q.calls.countP (·.holds r)
  days   : ∀ c d, ((q.usage c d).getD 0) = q.admittedOn c d
  cap    : ∀ r max, q.Allows r max → 0 < (q.perRun r).getD 0 → (q.perRun r).getD 0 ≤ max
  budget : ∀ c d, 0 < (q.usage c d).getD 0 → (q.usage c d).getD 0 ≤ (q.limits c).dailyAiBudget

theorem countP_set {p : AiCall → Bool} {l : List AiCall} {call' : AiCall} (hi : l[i]? = some call) :
    ((l.set i call').countP p : Int) =
      l.countP p - (if p call then 1 else 0) + (if p call' then 1 else 0) := by
  have hn := List.countP_set_add (b := call') p hi
  split_ifs at hn ⊢ <;> omega

theorem getD_update {perRun : PerRun} {r r' : RunId} {used : Int} :
    (Function.update perRun r (some used) r').getD 0 =
      if r' = r then used else (perRun r').getD 0 := by
  by_cases hr : r' = r <;> simp [hr]

theorem getD_set {usage : DailyUsage} {c c' : CollectionId} {d d' : Day} {used : Int} :
    (usage.set c d used c' d').getD 0 =
      if c' = c ∧ d' = d then used else (usage c' d').getD 0 := by
  by_cases hc : c' = c
  case neg => simp [DailyUsage.set, hc]
  case pos =>
    subst hc
    by_cases hd : d' = d <;> simp [DailyUsage.set, hd]

theorem accounts_set {l : List AiCall} (hi : l[i]? = some call) :
    (l.set i { call with stage }).map (·.account) = l.map (·.account) := by
  have ⟨hl, hc⟩ := List.getElem?_eq_some_iff.mp hi
  have hm : i < (l.map (·.account)).length := by simpa using hl
  have ha : call.account = (l.map (·.account))[i] := by simp [hc]
  simp only [List.map_set, ha, List.set_getElem_self]

-- A call moves on, and the counters with it.
theorem Balanced.reached {perRun : PerRun} {usage : DailyUsage} (h : q.Balanced)
    (hi : q.calls[i]? = some call)
    (hr : ∀ r, (perRun r).getD 0 = (q.perRun r).getD 0 - (if call.holds r then 1 else 0) +
      (if { call with stage : AiCall }.holds r then 1 else 0))
    (hu : ∀ c d, (usage c d).getD 0 = (q.usage c d).getD 0 -
      (if call.admittedOn c d then 1 else 0) +
      (if { call with stage : AiCall }.admittedOn c d then 1 else 0))
    (hc : ∀ r max, q.Allows r max → 0 < (perRun r).getD 0 → (perRun r).getD 0 ≤ max)
    (hb : ∀ c d, 0 < (usage c d).getD 0 → (usage c d).getD 0 ≤ (q.limits c).dailyAiBudget) :
    ({ q with perRun, usage }.reached i call stage).Balanced where
  runs r       := (hr r).trans (by rw [h.runs r]; exact (countP_set hi).symm)
  days c d     := (hu c d).trans (by rw [h.days c d]; exact (countP_set hi).symm)
  cap r max ha := hc r max fun a hm => ha a ((accounts_set hi).symm ▸ hm)
  budget       := hb

-- A call moves on which neither takes nor gives back.
theorem Balanced.moved (h : q.Balanced) (hi : q.calls[i]? = some call)
    (hh : call.stage.held = stage.held) (ha : ∀ d, call.stage.admittedOn d = stage.admittedOn d) :
    (q.reached i call stage).Balanced := by
  refine h.reached hi (fun r => ?_) (fun c d => ?_) h.cap h.budget
  · simp [AiCall.holds, hh]
  · simp [AiCall.admittedOn, ha]

theorem balanced_call {account : AiAccount} (h : q.Balanced) :
    (q.step (.call account)).Balanced where
  runs r       := by simpa [step, AiCall.holds, Stage.held] using h.runs r
  days c d     := by simpa [step, admittedOn, AiCall.admittedOn, Stage.admittedOn] using h.days c d
  cap r max ha := h.cap r max fun a hm => ha a (by simp [step] at hm ⊢; exact .inl hm)
  budget       := h.budget

theorem balanced_reserve {c : CollectionId} {r : Option RunId} (h : q.Balanced)
    (hi : q.calls[i]? = some call) (ha : call.account = .collection c r)
    (hs : call.stage = .loaded) : (q.reserve i call c r).Balanced := by
  cases r
  case none =>
    refine h.reached hi (fun r => ?_) (fun c d => ?_) h.cap h.budget
    · simp [AiCall.holds, ha, AiAccount.runId]
    · simp [AiCall.admittedOn, hs, Stage.admittedOn]
  case some r =>
    have hm : call.account ∈ q.calls.map (·.account) :=
      List.mem_map_of_mem (List.mem_of_getElem? hi)
    have hn (r') : call.holds r' = false := by simp [AiCall.holds, hs, Stage.held]
    have hd {stage : Stage} (hs' : ∀ d, stage.admittedOn d = false) (c' d) : (q.usage c' d).getD 0 =
        (q.usage c' d).getD 0 - (if call.admittedOn c' d then 1 else 0) +
          (if { call with stage : AiCall }.admittedOn c' d then 1 else 0) := by
      have hb : call.stage.admittedOn d = false := hs ▸ rfl
      simp [AiCall.admittedOn, hb, hs']
    simp only [reserve, tryReserveRun]
    split
    case h_1 he =>
      split at he
      case isTrue => cases he
      case isFalse hu =>
        cases he
        refine h.reached hi (fun r' => ?_) (hd fun _ => rfl) (fun r' max hl => ?_) h.budget
        · rw [getD_update, hn]
          by_cases hr : r' = r
          case pos => simp [AiCall.holds, ha, AiAccount.runId, Stage.held, hr]
          case neg => simp [AiCall.holds, ha, AiAccount.runId, hr, Ne.symm hr]
        · rw [getD_update]
          split_ifs with hr
          case pos =>
            have hl := hl _ hm c (hr ▸ ha)
            omega
          case neg => exact h.cap r' max hl
    case h_2 he =>
      split at he
      case isFalse => cases he
      case isTrue hu =>
        cases he
        have hk (r') : (Function.update q.perRun r (some ((q.perRun r).getD 0)) r').getD 0 =
            (q.perRun r').getD 0 := by
          rw [getD_update]
          split_ifs with hr
          case pos => rw [hr]
          case neg => rfl
        refine h.reached hi (fun r' => ?_) (hd fun _ => rfl) (fun r' max hl => ?_) h.budget
        · rw [hk, hn]
          simp [AiCall.holds, Stage.held]
        · rw [hk]
          exact h.cap r' max hl

-- What is not admitted leaves the counter of the day as it is.
theorem balanced_refuse {c : CollectionId} {r : Option RunId} {usage : DailyUsage}
    {e : AiGatewayError} (h : q.Balanced) (hi : q.calls[i]? = some call)
    (ha : call.account = .collection c r) (hs : call.stage = .reserved)
    (hu : ∀ c d, (usage c d).getD 0 = (q.usage c d).getD 0) :
    ({ q with usage }.refuse i call r e).Balanced := by
  have hb {d} : call.stage.admittedOn d = false := hs ▸ rfl
  have hx {stage : Stage} (hs' : ∀ d, stage.admittedOn d = false) (c d) : (usage c d).getD 0 =
      (q.usage c d).getD 0 - (if call.admittedOn c d then 1 else 0) +
        (if { call with stage : AiCall }.admittedOn c d then 1 else 0) := by
    simp [AiCall.admittedOn, hb, hs', hu]
  cases r
  case none =>
    refine h.reached hi (fun r' => ?_) (hx fun _ => rfl) h.cap fun c d => hu c d ▸ h.budget c d
    simp [AiCall.holds, ha, AiAccount.runId]
  case some r =>
    refine h.reached hi (fun r' => ?_) (hx fun _ => rfl) h.cap fun c d => hu c d ▸ h.budget c d
    simp [AiCall.holds, hs, Stage.held]

theorem balanced_consume {c : CollectionId} {r : Option RunId} {day : Day}
    {fault : Option Statement} (h : q.Balanced) (hi : q.calls[i]? = some call)
    (ha : call.account = .collection c r) (hs : call.stage = .reserved) :
    (q.consume i call c r day fault).Balanced := by
  have hk (c' d) : (q.usage.set c day ((q.usage c day).getD 0) c' d).getD 0 =
      (q.usage c' d).getD 0 := by
    rw [getD_set]
    split_ifs with hc
    case pos => rw [hc.left, hc.right]
    case neg => rfl
  simp only [consume, tryConsumeDailyUsage]
  split_ifs with hin hup hbu hse
  case pos => exact balanced_refuse h hi ha hs fun _ _ => rfl
  case pos => exact balanced_refuse h hi ha hs hk
  case pos =>
    have hu (c' d) : ((q.usage.set c day ((q.usage c day).getD 0)).set c day
        ((q.usage c day).getD 0 + 1) c' d).getD 0 =
          if c' = c ∧ d = day then (q.usage c day).getD 0 + 1 else (q.usage c' d).getD 0 := by
      rw [getD_set, hk]
    simp only [if_true]
    refine h.reached hi (fun r' => ?_) (fun c' d => ?_) h.cap fun c' d => ?_
    · simp [AiCall.holds, hs, Stage.held]
    · rw [hu]
      by_cases hcd : c' = c ∧ d = day
      case pos =>
        simp [hcd, AiCall.admittedOn, Stage.admittedOn, hs, ha, AiAccount.collectionId]
      case neg =>
        have hn : ¬(c = c' ∧ day = d) := fun e => hcd ⟨e.left.symm, e.right.symm⟩
        simp [hcd, AiCall.admittedOn, Stage.admittedOn, hs, ha, AiAccount.collectionId, hn]
    · rw [hu]
      split_ifs with hcd
      case pos => exact fun _ => hcd.left ▸ hbu
      case neg => exact h.budget c' d
  case pos => exact balanced_refuse h hi ha hs hk
  case neg =>
    simp only [Bool.false_eq_true, if_false]
    exact balanced_refuse h hi ha hs hk

theorem balanced_release {c : CollectionId} {r : Option RunId} {e : AiGatewayError}
    (h : q.Balanced) (hi : q.calls[i]? = some call) (ha : call.account = .collection c r)
    (hs : call.stage = .refused e) :
    ({ q with perRun := r.elim q.perRun (releaseRun q.perRun) }.reached i call
      (.returned (.error e))).Balanced := by
  have hd (c' d) : (q.usage c' d).getD 0 =
      (q.usage c' d).getD 0 - (if call.admittedOn c' d then 1 else 0) +
        (if { call with stage := .returned (.error e) : AiCall }.admittedOn c' d then 1 else 0) := by
    simp [AiCall.admittedOn, hs, Stage.admittedOn]
  cases r
  case none =>
    refine h.reached hi (fun r' => ?_) hd h.cap h.budget
    simp [AiCall.holds, ha, AiAccount.runId]
  case some r =>
    have hh : call.holds r := by simp [AiCall.holds, ha, AiAccount.runId, hs, Stage.held]
    -- The call is one of those which are counted.
    have hp : 0 < (q.perRun r).getD 0 := by
      rw [h.runs]
      exact Int.natCast_pos.mpr <| List.countP_pos_iff.mpr ⟨call, List.mem_of_getElem? hi, hh⟩
    have hg (r') : (releaseRun q.perRun r r').getD 0 =
        if r' = r then (q.perRun r).getD 0 - 1 else (q.perRun r').getD 0 := by
      cases hu : q.perRun r
      case none      => simp [hu] at hp
      case some used => simp only [releaseRun, hu, getD_update, Option.getD_some]
    refine h.reached hi (fun r' => ?_) hd (fun r' max hl => ?_) h.budget
    · rw [Option.elim_some, hg]
      by_cases hr : r' = r
      case pos =>
        have hx : { call with stage := .returned (.error e) : AiCall }.holds r = false := by
          simp [AiCall.holds, Stage.held]
        simp [hr, hh, hx]
      case neg => simp [AiCall.holds, ha, AiAccount.runId, hr, Ne.symm hr]
    · rw [Option.elim_some, hg]
      have hc := h.cap r' max hl
      split_ifs with hr
      case pos =>
        subst hr
        omega
      case neg => exact hc

theorem balanced_advance {day : Day} {fault : Option Statement} (h : q.Balanced)
    (hi : q.calls[i]? = some call) : (q.advance i call day fault).Balanced := by
  unfold advance
  split
  case h_1 ha =>
    refine h.reached hi (fun r => ?_) (fun c d => ?_) h.cap h.budget
    · simp [AiCall.holds, ha, AiAccount.runId]
    · simp [AiCall.admittedOn, ha, AiAccount.collectionId]
  case h_2 c r ha =>
    split
    case h_1 hs =>
      split
      case isTrue  => exact h.moved hi (hs ▸ rfl) fun _ => hs ▸ rfl
      case isFalse => exact h.moved hi (hs ▸ rfl) fun _ => hs ▸ rfl
    case h_2 hs => exact balanced_reserve h hi ha hs
    case h_3 hs => exact balanced_consume h hi ha hs
    case h_4 hs => exact balanced_release h hi ha hs
    case h_5    => exact h

theorem balanced_step (h : q.Balanced) (a : Action) : (q.step a).Balanced := by
  cases a
  case call account => exact balanced_call h
  case step i day fault =>
    simp only [step]
    split
    case h_1      => exact h
    case h_2 hi   => exact balanced_advance h hi

theorem balanced_run (h : q.Balanced) (l : List Action) : (q.run l).Balanced := by
  induction l generalizing q
  case nil          => exact h
  case cons a l hi  => exact hi (balanced_step h a)

theorem balanced_start (loadLimits : CollectionId → Option AiBudgetLimits) :
    Balanced { loadLimits } where
  runs _      := rfl
  days _ _    := rfl
  cap _ _ _   := fun h => absurd h (lt_irrefl 0)
  budget _ _  := fun h => absurd h (lt_irrefl 0)

-- What has been admitted for a run holds on to its reservation.
theorem admittedIn_le (r : RunId) : q.admittedIn r ≤ q.calls.countP (·.holds r) := by
  refine List.countP_mono_left fun call _ h => ?_
  simp only [AiCall.admittedIn, AiCall.holds, decide_eq_true_eq] at h ⊢
  refine ⟨h.left, ?_⟩
  cases hs : call.stage <;> simp [hs, Stage.admitted] at h
  case returned result =>
    cases result <;> simp at h
    case ok => rfl

theorem admittedIn_eq (r : RunId) (h : ∀ call ∈ q.calls, call.stage.finished) :
    q.calls.countP (·.holds r) = q.admittedIn r := by
  refine List.countP_congr fun call hm => ?_
  have h := h call hm
  cases hs : call.stage <;> simp [hs, Stage.finished] at h
  case returned result =>
    cases result <;> simp [AiCall.admittedIn, AiCall.holds, hs, Stage.held, Stage.admitted]

-- The calls which are admitted stay within the limits, whatever the others do, and the counters tell
-- how many they are.
theorem run_within_limits (loadLimits : CollectionId → Option AiBudgetLimits) (l : List Action) :
    let q := ({ loadLimits } : StoreAiQuota).run l
    (∀ r max, q.Allows r max → 0 < q.admittedIn r → (q.admittedIn r : Int) ≤ max) ∧
    (∀ c d, 0 < q.admittedOn c d → (q.admittedOn c d : Int) ≤ (q.limits c).dailyAiBudget) ∧
    (∀ c d, (q.usage c d).getD 0 = q.admittedOn c d) ∧
    ((∀ call ∈ q.calls, call.stage.finished) →
      ∀ r, (q.perRun r).getD 0 = q.admittedIn r) := by
  intro q
  have h : q.Balanced := balanced_run (balanced_start loadLimits) l
  refine ⟨fun r max hl hp => ?_, fun c d hp => ?_, h.days, fun hf r => ?_⟩
  case refine_1 =>
    have hle := admittedIn_le (q := q) r
    have hc := h.cap r max hl
    have hr := h.runs r
    omega
  case refine_2 =>
    have hb := h.budget c d
    have hd := h.days c d
    omega
  case refine_3 => exact (h.runs r).trans <| congrArg Nat.cast (admittedIn_eq r hf)

end StoreAiQuota
