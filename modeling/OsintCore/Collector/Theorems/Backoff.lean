import OsintCore.Collector.Dispatch
import OsintCore.Collector.Tick
import OsintCore.Control.Except

open Except (bind_eq_ok map_eq_ok pure_eq_ok)

namespace Backoff

-- The delay in milliseconds before it is cast to 64 bits.
def wideDelay (errorCount : Int32) (id : ConnectorId) (base max : UInt64) : Nat :=
  if errorCount ≤ 0 ∨ base = 0 then
    0
  else
    Min.min (exponentialCapped errorCount ⟨base, max⟩ * 1000 * (9000 + id % 2001) / 10000)
      (max.toNat * 1000)

section Delay

variable {e e' : Int32} {id : ConnectorId} {base max max' : UInt64}

theorem applyJitter_eq {delay : Nat} : applyJitter delay id max =
    Min.min (delay * 1000 * (9000 + id % 2001) / 10000) (max.toNat * 1000) % 2 ^ 64 := by
  unfold applyJitter
  split_ifs with h
  case pos => simp [h]
  case neg =>
    have hj : (10000 : Int) + ((id % 2001 : Nat) - 1000) = (9000 + id % 2001 : Nat) := by
      push_cast
      omega
    have ha : (delay : Int) * 1000 * (10000 + ((id % 2001 : Nat) - 1000)) / 10000 =
        (delay * 1000 * (9000 + id % 2001) / 10000 : Nat) := by
      rw [hj]
      norm_cast
    simp only [ha]
    congr 1
    omega

theorem retryBackoff_eq :
    retryBackoff e id ⟨base, max⟩ = wideDelay e id base max % 2 ^ 64 := by
  unfold retryBackoff wideDelay
  split_ifs
  case pos => rfl
  case neg => exact applyJitter_eq

theorem toNat_toUInt32 (h : 0 < e) : e.toUInt32.toNat = e.toInt.toNat :=
  Int32.toNat_toUInt32_of_le <| Int32.le_of_lt h

-- How often the base is doubled grows with the failures.
theorem exponentialCapped_mono (base : UInt64) (he : 0 < e) (h : e ≤ e') (hm : max ≤ max') :
    exponentialCapped e ⟨base, max⟩ ≤ exponentialCapped e' ⟨base, max'⟩ := by
  have hn : e.toUInt32.toNat ≤ e'.toUInt32.toNat := by
    rw [toNat_toUInt32 he, toNat_toUInt32 (Int32.lt_of_lt_of_le he h)]
    exact Int.toNat_le_toNat <| Int32.le_iff_toInt_le.mp h
  have hm : max.toNat ≤ max'.toNat := UInt64.le_iff_toNat_le.mp hm
  simp only [exponentialCapped]
  split_ifs with h₁ h₂ h₂
  case pos => exact hm
  case neg => omega
  case pos => exact (min_le_right _ _).trans hm
  case neg =>
    have hp : base.toNat * 2 ^ (e.toUInt32.toNat - 1) ≤ base.toNat * 2 ^ (e'.toUInt32.toNat - 1) :=
      Nat.mul_le_mul_left _ <| Nat.pow_le_pow_right (by omega) (by omega)
    exact min_le_min (min_le_min_right _ hp) hm

theorem exponentialCapped_le (e : Int32) (base max : UInt64) :
    exponentialCapped e ⟨base, max⟩ ≤ max.toNat := by
  simp only [exponentialCapped]
  split_ifs
  case pos => exact le_rfl
  case neg => exact min_le_right _ _

-- A larger limit by one second makes a difference of one second at most.
theorem exponentialCapped_succ (e : Int32) (base : UInt64) (h : max'.toNat = max.toNat + 1) :
    exponentialCapped e ⟨base, max'⟩ ≤ exponentialCapped e ⟨base, max⟩ + 1 := by
  simp only [exponentialCapped]
  split_ifs <;> omega

theorem wideDelay_mono (id : ConnectorId) (base : UInt64) (h : e ≤ e') (hm : max ≤ max') :
    wideDelay e id base max ≤ wideDelay e' id base max' := by
  by_cases h₁ : e ≤ 0 ∨ base = 0
  case pos => simp [wideDelay, h₁]
  case neg =>
    have ⟨hn, hb⟩ := not_or.mp h₁
    have he : 0 < e := Int32.not_le.mp hn
    have hn' : ¬e' ≤ 0 := Int32.not_le.mpr <| Int32.lt_of_lt_of_le he h
    have hx := exponentialCapped_mono base he h hm
    have hm : max.toNat ≤ max'.toNat := UInt64.le_iff_toNat_le.mp hm
    simp only [wideDelay, hn, hn', hb, or_self, if_false]
    apply min_le_min
    case a => exact Nat.div_le_div_right <| Nat.mul_le_mul_right _ <| Nat.mul_le_mul_right _ hx
    case a => exact Nat.mul_le_mul_right _ hm

theorem wideDelay_succ (h : max'.toNat = max.toNat + 1) :
    wideDelay e id base max' ≤ wideDelay e id base max + 1100 := by
  unfold wideDelay
  split_ifs with h₁
  case pos => exact Nat.zero_le _
  case neg =>
    have hx := exponentialCapped_succ e base h
    generalize exponentialCapped e ⟨base, max'⟩ = c' at hx ⊢
    generalize exponentialCapped e ⟨base, max⟩ = c at hx ⊢
    have hd : c' * 1000 * (9000 + id % 2001) / 10000 ≤
        c * 1000 * (9000 + id % 2001) / 10000 + 1100 := by
      rw [← Nat.add_mul_div_right _ _ (by decide : 0 < 10000)]
      apply Nat.div_le_div_right
      have hj : id % 2001 ≤ 2000 := Nat.le_of_lt_succ <| Nat.mod_lt _ (by decide)
      calc c' * 1000 * (9000 + id % 2001)
        _ ≤ (c + 1) * 1000 * (9000 + id % 2001) := by gcongr
        _ = c * 1000 * (9000 + id % 2001) + 1000 * (9000 + id % 2001) := by ring
        _ ≤ _ := by omega
    omega

theorem wideDelay_zero : wideDelay e id base 0 = 0 := by
  simp [wideDelay]

-- Where the delay outgrows 64 bits, it falls.
theorem exists_drop (h : 2 ^ 64 ≤ wideDelay e id base max) : ∃ m m' : UInt64, m ≤ m' ∧ m' ≤ max ∧
    retryBackoff e id ⟨base, m'⟩ < retryBackoff e id ⟨base, m⟩ := by
  let f (n : Nat) := wideDelay e id base (UInt64.ofNat n)
  have hex : ∃ n, 2 ^ 64 ≤ f n := ⟨max.toNat, by simpa [f] using h⟩
  have hn := Nat.find_spec hex
  have hle : Nat.find hex ≤ max.toNat := Nat.find_min' hex <| by simpa [f] using h
  cases hf : Nat.find hex
  case zero =>
    rw [hf] at hn
    simp [f, wideDelay_zero] at hn
  case succ n =>
    rw [hf] at hn hle
    have hlt : f n < 2 ^ 64 := Nat.not_le.mp <| Nat.find_min hex <| by omega
    have hs := max.toNat_lt
    have h₁ : (UInt64.ofNat n).toNat = n :=
      UInt64.toNat_ofNat_of_lt <| by unfold UInt64.size; omega
    have h₂ : (UInt64.ofNat (n + 1)).toNat = n + 1 :=
      UInt64.toNat_ofNat_of_lt <| by unfold UInt64.size; omega
    have hstep : f (n + 1) ≤ f n + 1100 := wideDelay_succ <| by rw [h₁, h₂]
    refine ⟨.ofNat n, .ofNat (n + 1), ?_, ?_, ?_⟩
    case refine_1 => exact UInt64.le_iff_toNat_le.mpr <| by omega
    case refine_2 => exact UInt64.le_iff_toNat_le.mpr <| by omega
    case refine_3 =>
      have hd (a b : Nat) (h : a ≤ b + 1100) (ha : 2 ^ 64 ≤ a) (hb : b < 2 ^ 64) :
          a % 2 ^ 64 < b % 2 ^ 64 := by
        omega
      rw [retryBackoff_eq, retryBackoff_eq]
      exact hd _ _ hstep hn hlt

theorem retryBackoff_of_lt (h : wideDelay e id base max < 2 ^ 64) :
    retryBackoff e id ⟨base, max⟩ = wideDelay e id base max := by
  rw [retryBackoff_eq, Nat.mod_eq_of_lt h]

theorem wideDelay_le : wideDelay e id base max ≤ max.toNat * 1000 := by
  unfold wideDelay
  split_ifs
  case pos => exact Nat.zero_le _
  case neg => exact min_le_right _ _

theorem retryBackoff_le : retryBackoff e id ⟨base, max⟩ ≤ max.toNat * 1000 :=
  retryBackoff_eq ▸ (Nat.mod_le _ _).trans wideDelay_le

theorem exponentialCapped_ge (base max : UInt64) (he : 0 < e) :
    min (base.toNat * 2 ^ (e.toInt.toNat - 1)) max.toNat ≤ exponentialCapped e ⟨base, max⟩ := by
  have hm := max.toNat_lt
  simp only [exponentialCapped, toNat_toUInt32 he, u64Max]
  split_ifs
  case pos => exact min_le_right _ _
  case neg => omega

theorem wideDelay_ge (he : 0 < e) (hb : 0 < base) :
    9 * (min (base.toNat * 2 ^ (e.toInt.toNat - 1)) max.toNat * 1000) ≤
      10 * (wideDelay e id base max + 1) := by
  have hge := exponentialCapped_ge base max he
  have hle := exponentialCapped_le e base max
  have h₁ : ¬(e ≤ 0 ∨ base = 0) :=
    not_or.mpr ⟨Int32.not_le.mpr he, fun h => absurd hb <| by simp [h]⟩
  simp only [wideDelay, if_neg h₁]
  generalize min (base.toNat * 2 ^ (e.toInt.toNat - 1)) max.toNat = least at hge ⊢
  generalize exponentialCapped e ⟨base, max⟩ = c at hge hle ⊢
  have hj : c * 1000 * 9000 ≤ c * 1000 * (9000 + id % 2001) := Nat.mul_le_mul_left _ (by omega)
  omega

end Delay

-- What the callers of the delay rely on.
structure Safe {Cron : Type} (lib : CronLib Cron) (c : Connector) (base max : UInt64)
    (now : Timestamp) : Prop where
  bounded  : retryBackoff c.errorCount c.id ⟨base, max⟩ ≤ max.toNat * 1000
  -- In milliseconds, up to one of them
  least    : 0 < base → 0 < c.errorCount →
    9 * (Min.min (base.toNat * 2 ^ (c.errorCount.toInt.toNat - 1)) max.toNat * 1000) ≤
      10 * (retryBackoff c.errorCount c.id ⟨base, max⟩ + 1)
  monotone : ∀ e₁ e₂ max₁ max₂, e₁ ≤ e₂ → e₂ ≤ c.errorCount → max₁ ≤ max₂ → max₂ ≤ max →
    retryBackoff e₁ c.id ⟨base, max₁⟩ ≤ retryBackoff e₂ c.id ⟨base, max₂⟩
  exact    : ∀ last ∈ c.lastRun, addDuration last (retryBackoff c.errorCount c.id ⟨base, max⟩) =
    .ok (last + (retryBackoff c.errorCount c.id ⟨base, max⟩ : Int) * 1000)
  next     : (nextAttemptAt lib c now ⟨base, max⟩).isOk
  backing  : (isBackingOff c now ⟨base, max⟩).isOk
  later    : ¬Collector.isUnscheduled c.schedule → isBackingOff c now ⟨base, max⟩ = .ok true →
    ∃ t, nextAttemptAt lib c now ⟨base, max⟩ = .ok (some t) ∧ now < t
  tick     : (Collector.planTick lib c now ⟨base, max⟩).isOk
  run      : Collector.planTick lib c now ⟨base, max⟩ = .ok .run → ∀ last ∈ c.lastRun,
    last + (retryBackoff c.errorCount c.id ⟨base, max⟩ : Int) * 1000 ≤ now

-- The delay has a value of 64 bits, and it leads from the last run to an instant of the calendar.
structure Fits (c : Connector) (base max : UInt64) : Prop where
  delay   : wideDelay c.errorCount c.id base max < 2 ^ 64
  instant : ∀ last ∈ c.lastRun, wideDelay c.errorCount c.id base max ≤ i64Max ∧
    minUtc ≤ last + (wideDelay c.errorCount c.id base max : Int) * 1000 ∧
    last + (wideDelay c.errorCount c.id base max : Int) * 1000 ≤ maxUtc

section Calendar

variable {Cron : Type} {lib : CronLib Cron} {c : Connector} {cfg : BackoffConfig} {now : Timestamp}

theorem addDuration_eq_ok {last : Timestamp} {delay : Duration} :
    addDuration last delay = .ok (last + (delay : Int) * 1000) ↔
      delay ≤ i64Max ∧ minUtc ≤ last + (delay : Int) * 1000 ∧
        last + (delay : Int) * 1000 ≤ maxUtc := by
  unfold addDuration
  by_cases hd : delay ≤ i64Max
  case pos => simp [hd]
  case neg =>
    have hz : delay ≠ 0 := fun hz => hd <| hz ▸ Nat.zero_le _
    have hne : last ≠ last + (delay : Int) * 1000 := by simpa using hz
    simp only [hd, if_false, false_and, iff_false]
    split_ifs
    case pos => simpa using hne
    case neg => nofun

variable (h : ∀ last ∈ c.lastRun, addDuration last (retryBackoff c.errorCount c.id cfg) =
  .ok (last + (retryBackoff c.errorCount c.id cfg : Int) * 1000))
include h

theorem isBackingOff_eq : isBackingOff c now cfg = .ok (decide <| 0 < c.errorCount ∧
    ∃ last ∈ c.lastRun, now < last + (retryBackoff c.errorCount c.id cfg : Int) * 1000) := by
  unfold isBackingOff
  by_cases he : c.errorCount ≤ 0
  case pos => simp [he, Int32.not_lt.mpr he, pure, Except.pure]
  case neg =>
    rw [if_neg he]
    cases hl : c.lastRun
    case none      => simp [pure, Except.pure]
    case some last => simp [h last hl, Int32.not_le.mp he, pure, Except.pure, bind, Except.bind]

theorem nextAttemptAt_of_scheduled (lib : CronLib Cron) (now : Timestamp)
    (hs : (c.schedule.map Text.trim).getD "" ≠ "") :
    ∃ t, nextAttemptAt lib c now cfg = .ok (some t) ∧
      ∀ last ∈ c.lastRun, last + (retryBackoff c.errorCount c.id cfg : Int) * 1000 ≤ t := by
  unfold nextAttemptAt
  simp only [if_neg hs]
  cases hl : c.lastRun
  case none      => exact ⟨_, rfl, nofun⟩
  case some last =>
    simp only [h last hl]
    exact ⟨_, rfl, fun _ he => Option.some.inj he ▸ le_max_right _ _⟩

theorem isOk_nextAttemptAt (lib : CronLib Cron) (now : Timestamp) :
    (nextAttemptAt lib c now cfg).isOk := by
  by_cases hs : (c.schedule.map Text.trim).getD "" = ""
  case pos => simp [nextAttemptAt, hs, pure, Except.pure, Except.isOk, Except.toBool]
  case neg =>
    have ⟨t, ht, _⟩ := nextAttemptAt_of_scheduled h lib now hs
    rw [ht]
    rfl

theorem isOk_planTick : (Collector.planTick lib c now cfg).isOk := by
  have ⟨next, hn⟩ := Except.exists_of_isOk <| isOk_nextAttemptAt h lib now
  unfold Collector.planTick
  split_ifs
  case pos => rfl
  case pos => rfl
  case pos => rfl
  case neg =>
    split
    case h_1 => rfl
    case h_2 => rfl
    case h_3 =>
      rw [isBackingOff_eq h]
      simp only [bind, Except.bind, hn]
      split <;> rfl

omit h in
theorem planTick_eq_run (hr : Collector.planTick lib c now cfg = .ok .run) :
    Collector.isDue lib (c.schedule.getD "") c.lastRun now = .ok true ∧
      isBackingOff c now cfg = .ok false := by
  unfold Collector.planTick at hr
  split_ifs at hr
  case pos => simp at hr
  case pos => simp at hr
  case pos => simp at hr
  case neg =>
    split at hr
    case h_1 => simp at hr
    case h_2 => simp at hr
    case h_3 hd =>
      have ⟨b, hb, hr⟩ := bind_eq_ok.mp hr
      cases b
      case true  => simp at hr
      case false => exact ⟨hd, hb⟩

omit h in
theorem lt_of_isDue {schedule : String} {last : Timestamp}
    (hd : Collector.isDue lib schedule (some last) now = .ok true) : last < now := by
  unfold Collector.isDue at hd
  have ⟨_, _, hd⟩ := bind_eq_ok.mp hd
  by_contra hn
  simp [Int.not_lt.mp hn] at hd

-- A connector without failures needs no delay, and one which is due has been run before now.
theorem of_planTick_run (hr : Collector.planTick lib c now cfg = .ok .run) :
    ∀ last ∈ c.lastRun, last + (retryBackoff c.errorCount c.id cfg : Int) * 1000 ≤ now := by
  intro last hl
  have ⟨hd, hb⟩ := planTick_eq_run hr
  simp only [isBackingOff_eq h, Except.ok.injEq, decide_eq_false_iff_not, not_and, not_exists] at hb
  by_cases he : 0 < c.errorCount
  case pos => exact Int.not_lt.mp <| hb he last hl
  case neg =>
    have hz : retryBackoff c.errorCount c.id cfg = 0 := if_pos <| .inl <| Int32.not_lt.mp he
    have hlt : last < now := lt_of_isDue (Option.mem_def.mp hl ▸ hd)
    simpa [hz] using hlt.le

end Calendar

theorem safe_iff {Cron : Type} (lib : CronLib Cron) (c : Connector) (base max : UInt64)
    (now : Timestamp) : Safe lib c base max now ↔ Fits c base max := by
  constructor
  case mp =>
    intro h
    have hd : wideDelay c.errorCount c.id base max < 2 ^ 64 := by
      by_contra hd
      have ⟨m, m', hm, hm', hlt⟩ := exists_drop <| Nat.not_lt.mp hd
      exact hlt.not_ge <| h.monotone _ _ m m' Int32.le_rfl Int32.le_rfl hm hm'
    refine ⟨hd, fun last hl => ?_⟩
    rw [← retryBackoff_of_lt hd]
    exact addDuration_eq_ok.mp <| h.exact last hl
  case mpr =>
    intro h
    have hd := retryBackoff_of_lt h.delay
    have he : ∀ last ∈ c.lastRun,
        addDuration last (retryBackoff c.errorCount c.id ⟨base, max⟩) =
          .ok (last + (retryBackoff c.errorCount c.id ⟨base, max⟩ : Int) * 1000) :=
      fun last hl => addDuration_eq_ok.mpr <| hd ▸ h.instant last hl
    constructor
    case bounded => exact retryBackoff_le
    case least   => exact fun hb hn => hd ▸ wideDelay_ge hn hb
    case exact   => exact he
    case next    => exact isOk_nextAttemptAt he lib now
    case backing => rw [isBackingOff_eq he]; rfl
    case tick    => exact isOk_planTick he
    case run     => exact of_planTick_run he
    case monotone =>
      intro e₁ e₂ m₁ m₂ h₁ h₂ hm₁ hm₂
      have hlt : wideDelay e₂ c.id base m₂ < 2 ^ 64 := (wideDelay_mono _ _ h₂ hm₂).trans_lt h.delay
      have hle := wideDelay_mono c.id base h₁ hm₁
      rwa [retryBackoff_of_lt hlt, retryBackoff_of_lt (hle.trans_lt hlt)]
    case later =>
      intro hs hb
      have hs : (c.schedule.map Text.trim).getD "" ≠ "" := by
        simpa [Collector.isUnscheduled] using hs
      have ⟨t, ht, hle⟩ := nextAttemptAt_of_scheduled he lib now hs
      rw [isBackingOff_eq he] at hb
      have ⟨_, last, hl, hlt⟩ := of_decide_eq_true <| Except.ok.inj hb
      exact ⟨t, ht, hlt.trans_le <| hle last hl⟩

namespace Sample

def everyMinute : CronLib Unit where
  fromStr _              := .ok ()
  findNextOccurrence _ t := .ok (t + 60000000)

-- A connector whose delay reaches a limit beyond the calendar
def longFailed : Connector :=
  { Collector.Sample.failing 1000 64 with lastRun := some 0 }

end Sample

-- The connector is run again although its delay has hardly begun.
theorem not_safe : ¬∀ (c : Connector) (base max : UInt64) (now : Timestamp),
    Safe Sample.everyMinute c base max now := by
  intro h
  have hr := (h Sample.longFailed 1 10000000000000000 60000000).run (by decide +kernel) 0 rfl
  exact absurd hr <| by decide +kernel

end Backoff
