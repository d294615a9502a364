import OsintCore.AiGateway.Pressure
import OsintCore.Control.Recent

inductive PressureCall
  | record («class» : AttemptClass) (latency : Duration)
  | setQueueDepth (depth : Nat)
  | current
  deriving DecidableEq

-- The calls one after another, each with the reading of the clock.
abbrev PressureCalls := List (Duration × PressureCall)

namespace PressureCalls

-- Everything which has been recorded, also what has been dropped since
def recorded (calls : PressureCalls) : List PressureSample :=
  calls.filterMap fun
    | (now, .record «class» latency) => some { «at» := now, latency, «class» }
    | _                              => none

def queueDepth (calls : PressureCalls) : Nat :=
  calls.foldl (fun depth call =>
    match call with
    | (_, .setQueueDepth depth) => depth
    | _                         => depth) 0

-- The latest samples inside the window
def inWindow (window : Duration) (calls : PressureCalls) (now : Duration) : List PressureSample :=
  (calls.recorded.filter (!isStale window now ·)).rtake maxSamples

end PressureCalls

section

variable {F : Type} [LE F] [DecidableLE F] (ratio : Nat → Nat → F)

def PressureCalls.levelAt (t : PressureThresholds F) (calls : PressureCalls) (now : Duration) :
    ResourcePressure :=
  rawLevel ratio (calls.inWindow t.window now) calls.queueDepth t

namespace ObservedPressure

def step (p : ObservedPressure F) : Duration × PressureCall → ObservedPressure F
  | (now, .record «class» latency) => p.record now «class» latency
  | (_,   .setQueueDepth depth)    => p.setQueueDepth depth
  | (now, .current)                => (p.evaluate ratio now).snd

def run (t : PressureThresholds F) (start : Duration) (calls : PressureCalls) :
    ObservedPressure F :=
  calls.foldl (step ratio) (withClock t start)

end ObservedPressure

end

namespace PressureCalls

variable {calls : PressureCalls} {window now start u v : Duration} {call : PressureCall}

-- The clock never runs backwards.
def Monotone (start : Duration) (calls : PressureCalls) (now : Duration) : Prop :=
  (start :: calls.map Prod.fst ++ [now]).Pairwise (· ≤ ·)

instance : Decidable (Monotone start calls now) :=
  inferInstanceAs (Decidable (List.Pairwise _ _))

theorem monotone_append : Monotone start (calls ++ [(u, call)]) now ↔
    Monotone start calls u ∧ u ≤ now := by
  simp only [Monotone, List.map_append, List.map_cons, List.map_nil, List.cons_append,
    List.append_assoc, List.pairwise_cons, List.pairwise_append, List.mem_append, List.mem_cons,
    List.not_mem_nil, or_false, List.Pairwise.nil, and_true]
  grind

theorem recorded_append : (calls ++ [(u, call)]).recorded = calls.recorded ++
    match call with
    | .record «class» latency => [{ «at» := u, latency, «class» }]
    | _                       => [] := by
  rw [recorded, List.filterMap_append]
  cases call <;> rfl

theorem queueDepth_append : (calls ++ [(u, call)]).queueDepth =
    match call with
    | .setQueueDepth depth => depth
    | _                    => calls.queueDepth := by
  simp only [queueDepth, List.foldl_append, List.foldl_cons, List.foldl_nil]
  cases call <;> rfl

theorem Monotone.mono (h : Monotone start calls u) (hu : u ≤ now) : Monotone start calls now := by
  simp only [Monotone, List.cons_append, List.pairwise_cons, List.pairwise_append, List.mem_append,
    List.mem_singleton] at h ⊢
  grind

theorem recorded_le (h : Monotone start calls now) : ∀ s ∈ calls.recorded, s.at ≤ now := by
  induction calls using List.reverseRecOn generalizing now
  case nil => nofun
  case append_singleton calls call hi =>
    have ⟨u, call⟩ := call
    have ⟨h, hu⟩ := monotone_append.mp h
    intro s hs
    rw [recorded_append] at hs
    rcases List.mem_append.mp hs with hs | hs
    case inl => exact (hi h s hs).trans hu
    case inr =>
      cases call
      case record => cases List.mem_singleton.mp hs; exact hu
      all_goals cases hs

theorem sorted_recorded (h : Monotone start calls now) :
    calls.recorded.Pairwise fun s s' => s.at ≤ s'.at := by
  induction calls using List.reverseRecOn generalizing now
  case nil => exact .nil
  case append_singleton calls call hi =>
    have ⟨u, call⟩ := call
    have ⟨hc, _⟩ := monotone_append.mp h
    rw [recorded_append]
    refine List.pairwise_append.mpr ⟨hi hc, ?_, fun s hs s' hs' => ?_⟩
    case refine_1 => cases call <;> simp
    case refine_2 =>
      cases call
      case record => cases List.mem_singleton.mp hs'; exact recorded_le hc s hs
      all_goals cases hs'

end PressureCalls

variable {window now u v : Duration} {samples : List PressureSample}

theorem isStale_mono {s : PressureSample} (h : u ≤ v) (hs : isStale window u s) :
    isStale window v s := by
  simp only [isStale, decide_eq_true_eq] at hs ⊢
  exact hs.trans_le <| Nat.sub_le_sub_right h _

theorem prune_eq_filter (h : samples.Pairwise fun s s' => s.at ≤ s'.at) :
    prune window now samples = samples.filter (!isStale window now ·) := by
  refine List.dropWhile_eq_filter <| h.imp fun {s s'} h hs => ?_
  simp only [isStale, decide_eq_true_eq] at hs ⊢
  exact hs.trans_le <| Nat.sub_le_sub_left h _

theorem prune_append {s : PressureSample} (h : isStale window now s = false) :
    prune window now (samples ++ [s]) = prune window now samples ++ [s] := by
  rw [prune, List.dropWhile_append, ← prune]
  split
  case isTrue he => simp [h, List.isEmpty_iff.mp he]
  case isFalse   => rfl

theorem filter_append_fresh {s : PressureSample} (h : isStale window now s = false) :
    samples.filter (!isStale window now ·) ++ [s] =
      (samples ++ [s]).filter (!isStale window now ·) := by
  simp [h]

-- What is stale later on need not be kept.
theorem prune_rtake_filter (h : samples.Pairwise fun s s' => s.at ≤ s'.at) (hu : u ≤ now)
    (n : Nat) :
    prune window now ((samples.filter (!isStale window u ·)).rtake n) =
      (samples.filter (!isStale window now ·)).rtake n := by
  have hf := h.sublist (List.filter_sublist (p := (!isStale window u ·)))
  have hm : (samples.filter (!isStale window u ·)).Pairwise
      fun s s' => !isStale window now s → !isStale window now s' := by
    refine hf.imp fun {s s'} h hs => ?_
    simp only [isStale, Bool.not_eq_true', decide_eq_false_iff_not, not_lt] at hs ⊢
    exact (Nat.sub_le_sub_left h _).trans hs
  rw [prune_eq_filter (hf.sublist List.rtake_sublist), List.filter_rtake hm, List.filter_filter]
  congr 1
  apply List.filter_congr
  intro s _
  have hm : isStale window u s → isStale window now s := isStale_mono hu
  cases hs : isStale window u s <;> simp_all

namespace ObservedPressure

section

variable {F : Type} {p : ObservedPressure F} {raw : ResourcePressure}

@[simp]
theorem thresholds_applyHysteresis : (p.applyHysteresis raw now).thresholds = p.thresholds := by
  unfold applyHysteresis
  split_ifs <;> rfl

@[simp]
theorem samples_applyHysteresis : (p.applyHysteresis raw now).samples = p.samples := by
  unfold applyHysteresis
  split_ifs <;> rfl

@[simp]
theorem queueDepth_applyHysteresis : (p.applyHysteresis raw now).queueDepth = p.queueDepth := by
  unfold applyHysteresis
  split_ifs <;> rfl

theorem applyHysteresis_cases (p : ObservedPressure F) (raw : ResourcePressure) (now : Duration) :
    (p.level.severity < raw.severity ∧
      p.applyHysteresis raw now = { p with level := raw, lastChange := now }) ∨
    (raw.severity < p.level.severity ∧ p.thresholds.cooldown ≤ now - p.lastChange ∧
      p.applyHysteresis raw now = { p with level := p.level.stepDown, lastChange := now }) ∨
    (raw.severity ≤ p.level.severity ∧ p.applyHysteresis raw now = p) := by
  unfold applyHysteresis
  split_ifs with h₁ h₂
  case pos       => exact .inl ⟨h₁, rfl⟩
  case pos       => exact .inr <| .inl ⟨h₂.left, h₂.right, rfl⟩
  case neg       => exact .inr <| .inr ⟨not_lt.mp h₁, rfl⟩

end

variable {F : Type} [LE F] [DecidableLE F] {ratio : Nat → Nat → F} {t : PressureThresholds F}
  {start : Duration} {calls : PressureCalls} {call : PressureCall} {p : ObservedPressure F}
  {raw : ResourcePressure}

theorem run_append : run ratio t start (calls ++ [(u, call)]) =
    step ratio (run ratio t start calls) (u, call) := by
  simp [run]

@[simp]
theorem thresholds_run : (run ratio t start calls).thresholds = t := by
  induction calls using List.reverseRecOn
  case nil => rfl
  case append_singleton calls call hi =>
    have ⟨u, call⟩ := call
    rw [run_append]
    cases call
    case record        => exact hi
    case setQueueDepth => exact hi
    case current =>
      simp only [step, evaluate]
      split <;> simp [hi]

theorem queueDepth_run : (run ratio t start calls).queueDepth = calls.queueDepth := by
  induction calls using List.reverseRecOn
  case nil => rfl
  case append_singleton calls call hi =>
    have ⟨u, call⟩ := call
    rw [run_append, PressureCalls.queueDepth_append]
    cases call
    case record        => exact hi
    case setQueueDepth => rfl
    case current =>
      simp only [step, evaluate]
      split <;> simp [hi]

theorem length_samples_run : (run ratio t start calls).samples.length ≤ maxSamples := by
  induction calls using List.reverseRecOn
  case nil => exact Nat.zero_le _
  case append_singleton calls call hi =>
    have ⟨u, call⟩ := call
    rw [run_append]
    cases call
    case record        => exact List.length_rtake_le
    case setQueueDepth => exact hi
    case current =>
      simp only [step, evaluate]
      split
      case isTrue  => exact hi
      case isFalse => simpa [prune] using (List.length_dropWhile_le _ _).trans hi

-- What is left of the samples is what has been recorded inside the window.
theorem prune_samples_run (h : calls.Monotone start now) :
    prune t.window now (run ratio t start calls).samples = calls.inWindow t.window now := by
  induction calls using List.reverseRecOn generalizing now
  case nil => simp [run, withClock, prune, PressureCalls.inWindow, PressureCalls.recorded]
  case append_singleton calls call hi =>
    have ⟨u, call⟩ := call
    have ⟨hc, hu⟩ := PressureCalls.monotone_append.mp h
    have hs := PressureCalls.sorted_recorded h
    rw [run_append]
    cases call
    case setQueueDepth =>
      simpa [step, setQueueDepth, PressureCalls.inWindow, PressureCalls.recorded_append] using
        hi (hc.mono hu)
    case current =>
      have hi' := hi (hc.mono hu)
      simp only [step, evaluate]
      split
      case isTrue =>
        simpa [PressureCalls.inWindow, PressureCalls.recorded_append] using hi'
      case isFalse =>
        simp only [samples_applyHysteresis, thresholds_run, hi hc, PressureCalls.inWindow,
          PressureCalls.recorded_append, List.append_nil] at hs ⊢
        exact prune_rtake_filter hs hu _
    case record «class» latency =>
      have hf : isStale t.window u ⟨u, latency, «class»⟩ = false := by simp [isStale]
      rw [PressureCalls.recorded_append] at hs
      simp only [step, record, thresholds_run, prune_append hf, hi hc, PressureCalls.inWindow,
        List.rtake_rtake_append, PressureCalls.recorded_append, filter_append_fresh hf]
      exact prune_rtake_filter hs hu _

variable (ratio call) in
-- The level changes at the time which is remembered, and that is never put back.
theorem lastChange_step (hp : p.lastChange ≤ now) :
    p.lastChange ≤ (step ratio p (now, call)).lastChange ∧
      (step ratio p (now, call)).lastChange ≤ now ∧
      ((step ratio p (now, call)).level ≠ p.level →
        (step ratio p (now, call)).lastChange = now) := by
  cases call
  case record        => exact ⟨le_rfl, hp, fun h => (h rfl).elim⟩
  case setQueueDepth => exact ⟨le_rfl, hp, fun h => (h rfl).elim⟩
  case current =>
    simp only [step, evaluate]
    split
    case isTrue => exact ⟨le_rfl, hp, fun h => (h rfl).elim⟩
    case isFalse =>
      rcases applyHysteresis_cases { p with samples := prune p.thresholds.window now p.samples }
        (rawLevel ratio (prune p.thresholds.window now p.samples) p.queueDepth p.thresholds) now
        with ⟨_, h⟩ | ⟨_, _, h⟩ | ⟨_, h⟩ <;> rw [h]
      case inl     => exact ⟨hp, le_rfl, fun _ => rfl⟩
      case inr.inl => exact ⟨hp, le_rfl, fun _ => rfl⟩
      case inr.inr => exact ⟨le_rfl, hp, fun h => (h rfl).elim⟩

theorem lastChange_run (h : calls.Monotone start now) :
    start ≤ (run ratio t start calls).lastChange ∧
      (run ratio t start calls).lastChange ≤ now := by
  induction calls using List.reverseRecOn generalizing now
  case nil =>
    have hs : start ≤ now := by simpa [PressureCalls.Monotone] using h
    exact ⟨le_rfl, hs⟩
  case append_singleton calls call hi =>
    have ⟨u, call⟩ := call
    have ⟨hc, hu⟩ := PressureCalls.monotone_append.mp h
    have ⟨hs, hn⟩ := hi hc
    have ⟨hl, hr, _⟩ := lastChange_step ratio call hn
    rw [run_append]
    exact ⟨hs.trans hl, hr.trans hu⟩

-- The level has been changed at the given time.
def ChangesAt (ratio : Nat → Nat → F) (t : PressureThresholds F) (start : Duration)
    (calls : PressureCalls) (u : Duration) : Prop :=
  ∃ before after, calls = before ++ (u, .current) :: after ∧
    (run ratio t start (before ++ [(u, .current)])).level ≠ (run ratio t start before).level

theorem ChangesAt.le_lastChange (h : calls.Monotone start now)
    (hc : ChangesAt ratio t start calls u) : u ≤ (run ratio t start calls).lastChange := by
  obtain ⟨before, after, rfl, hl⟩ := hc
  induction after using List.reverseRecOn generalizing now
  case nil =>
    have ⟨hb, _⟩ := PressureCalls.monotone_append.mp h
    rw [run_append] at hl ⊢
    exact (lastChange_step _ _ (lastChange_run hb).right).right.right hl |>.ge
  case append_singleton after call hi =>
    have ⟨v, call⟩ := call
    have he : before ++ (u, PressureCall.current) :: (after ++ [(v, call)]) =
        (before ++ (u, .current) :: after) ++ [(v, call)] := by simp
    rw [he] at h ⊢
    have ⟨hb, _⟩ := PressureCalls.monotone_append.mp h
    rw [run_append]
    exact (hi hb).trans (lastChange_step _ _ (lastChange_run hb).right).left

-- A call of `current` finds a level at least as high as the samples in the window demand. It moves
-- straight up, or one step down if the cooldown has passed since the last change.
structure Steady (ratio : Nat → Nat → F) (t : PressureThresholds F) (start : Duration)
    (calls : PressureCalls) (now : Duration) : Prop where
  disabled : t.enabled = false → ((run ratio t start calls).evaluate ratio now).fst = .normal
  atLeast  : t.enabled → (calls.levelAt ratio t now).severity ≤
    ((run ratio t start calls).evaluate ratio now).fst.severity
  moves    : t.enabled →
    ((run ratio t start calls).evaluate ratio now).fst = (run ratio t start calls).level ∨
    (run ratio t start calls).level.severity < (calls.levelAt ratio t now).severity ∧
      ((run ratio t start calls).evaluate ratio now).fst = calls.levelAt ratio t now ∨
    (calls.levelAt ratio t now).severity < (run ratio t start calls).level.severity ∧
      ((run ratio t start calls).evaluate ratio now).fst.severity + 1 =
        (run ratio t start calls).level.severity
  cooled   : t.enabled → ((run ratio t start calls).evaluate ratio now).fst.severity <
      (run ratio t start calls).level.severity →
    start + t.cooldown ≤ now ∧ ∀ u, ChangesAt ratio t start calls u → u + t.cooldown ≤ now
  bounded  : (run ratio t start calls).samples.length ≤ maxSamples
  window   : t.enabled → ((run ratio t start calls).evaluate ratio now).snd.samples =
    calls.inWindow t.window now

theorem samples_evaluate_run (h : calls.Monotone start now) (he : t.enabled) :
    ((run ratio t start calls).evaluate ratio now).snd.samples =
      calls.inWindow t.window now := by
  simp [evaluate, he, prune_samples_run h]

variable (ratio) in
-- All that a call of `current` can answer
theorem evaluate_run_cases (h : calls.Monotone start now) (he : t.enabled) :
    ((run ratio t start calls).level.severity < (calls.levelAt ratio t now).severity ∧
      ((run ratio t start calls).evaluate ratio now).fst = calls.levelAt ratio t now) ∨
    ((calls.levelAt ratio t now).severity < (run ratio t start calls).level.severity ∧
      t.cooldown ≤ now - (run ratio t start calls).lastChange ∧
      ((run ratio t start calls).evaluate ratio now).fst =
        (run ratio t start calls).level.stepDown) ∨
    ((calls.levelAt ratio t now).severity ≤ (run ratio t start calls).level.severity ∧
      ((run ratio t start calls).evaluate ratio now).fst = (run ratio t start calls).level) := by
  have hl : ((run ratio t start calls).evaluate ratio now).fst =
      (({ run ratio t start calls with samples := calls.inWindow t.window now } :
        ObservedPressure F).applyHysteresis (calls.levelAt ratio t now) now).level := by
    simp [evaluate, he, prune_samples_run h, queueDepth_run, PressureCalls.levelAt]
  rw [hl]
  rcases applyHysteresis_cases
    { run ratio t start calls with samples := calls.inWindow t.window now }
    (calls.levelAt ratio t now) now with ⟨hr, hp⟩ | ⟨hr, ht, hp⟩ | ⟨hr, hp⟩
  case inl     => exact .inl ⟨hr, by rw [hp]⟩
  case inr.inl => exact .inr <| .inl ⟨hr, by simpa using ht, by rw [hp]⟩
  case inr.inr => exact .inr <| .inr ⟨hr, by rw [hp]⟩

theorem severity_stepDown {level : ResourcePressure} (h : raw.severity < level.severity) :
    level.stepDown.severity + 1 = level.severity := by
  cases level
  case normal => cases h
  all_goals rfl

theorem run_steady (t : PressureThresholds F) (h : calls.Monotone start now) :
    Steady ratio t start calls now := by
  refine ⟨fun he => ?disabled, fun he => ?atLeast, fun he => ?moves, fun he hf => ?cooled,
    length_samples_run, samples_evaluate_run h⟩
  case disabled => simp [evaluate, he]
  case atLeast =>
    rcases evaluate_run_cases ratio h he with ⟨hr, hp⟩ | ⟨hr, _, hp⟩ | ⟨hr, hp⟩ <;>
      rw [hp]
    case inr.inl => exact Nat.le_of_lt_succ <| hr.trans_eq (severity_stepDown hr).symm
    case inr.inr => exact hr
  case moves =>
    rcases evaluate_run_cases ratio h he with hp | ⟨hr, _, hp⟩ | ⟨_, hp⟩
    case inl     => exact .inr <| .inl hp
    case inr.inl => exact .inr <| .inr ⟨hr, hp ▸ severity_stepDown hr⟩
    case inr.inr => exact .inl hp
  case cooled =>
    have ⟨hs, hn⟩ : start ≤ (run ratio t start calls).lastChange ∧ _ := lastChange_run h
    rcases evaluate_run_cases ratio h he with ⟨hr, hp⟩ | ⟨_, ht, _⟩ | ⟨_, hp⟩
    case inl     => exact (hf.not_gt <| hp ▸ hr).elim
    case inr.inr => exact (hf.ne <| hp ▸ rfl).elim
    case inr.inl =>
      have hc : (run ratio t start calls).lastChange + t.cooldown ≤ now :=
        Nat.add_le_of_le_sub' hn ht
      exact ⟨(Nat.add_le_add_right hs _).trans hc, fun u hu =>
        (Nat.add_le_add_right (hu.le_lastChange h) _).trans hc⟩

-- The samples have demanded less for as long as the cooldown lasts.
def HeldBelow (ratio : Nat → Nat → F) (t : PressureThresholds F) (start : Duration)
    (calls : PressureCalls) (now : Duration) : Prop :=
  ∀ u, start ≤ u → u ≤ now → now ≤ u + t.cooldown →
    (PressureCalls.levelAt ratio t (calls.filter (·.fst ≤ u)) u).severity <
      (run ratio t start calls).level.severity

namespace Sample

def quotient (n d : Nat) : ℚ := n / d

def thresholds : PressureThresholds ℚ where
  enabled              := true
  window               := 60
  minSamples           := 1
  cooldown             := 10
  elevatedP95          := 100
  highP95              := 200
  criticalP95          := 400
  elevated429Ratio     := 0.2
  high429Ratio         := 0.5
  critical429Ratio     := 0.8
  elevatedTimeoutRatio := 2
  highTimeoutRatio     := 2
  criticalTimeoutRatio := 2
  elevated5xxRatio     := 2
  high5xxRatio         := 2
  critical5xxRatio     := 2
  elevatedQueue        := 100
  highQueue            := 100
  criticalQueue        := 100

-- The ratio of refused calls falls just before the cooldown is over.
def lateRelief : PressureCalls :=
  [(0, .record .rateLimited 1), (0, .current), (9, .record .success 1), (9, .record .success 1),
   (9, .record .success 1)]

end Sample

theorem run_steady_lateRelief : Steady Sample.quotient Sample.thresholds 0 Sample.lateRelief 10 :=
  run_steady Sample.thresholds (by decide)

theorem not_run_heldBelow : ¬∀ (t : PressureThresholds ℚ) (start : Duration)
    (calls : PressureCalls) (now : Duration), calls.Monotone start now → t.enabled →
      ((run Sample.quotient t start calls).evaluate Sample.quotient now).fst.severity <
        (run Sample.quotient t start calls).level.severity →
      HeldBelow Sample.quotient t start calls now := by
  intro h
  have h := h Sample.thresholds 0 Sample.lateRelief 10 (by decide) rfl (by decide +kernel) 5
    (by decide) (by decide) (by decide)
  exact absurd h (by decide +kernel)

end ObservedPressure
