import OsintCore.RateLimit.Limiter

open TokenBucket

namespace DomainRateLimiter

def limits (config : RateLimitConfig) : Limits ℚ where
  burst        := max config.burst 1
  rate         := max config.perSecond 0.001
  one_le_burst := le_max_right _ _
  rate_pos     := lt_max_of_lt_right (by norm_num)

-- The calls one after another, with their answers
def run (l : DomainRateLimiter) :
    List (String × Instant) → List ((String × Instant) × Except ConnectorError Unit)
  | []                     => []
  | (domain, now) :: calls => ((domain, now), (l.acquire domain now).fst) ::
    (l.acquire domain now).snd.run calls

-- The calls for one domain, however it is spelt
def callsFor (domain : String) (calls : List (String × Instant)) : List (String × Instant) :=
  calls.filter (normalizeHost ·.fst = domain)

def answersFor (domain : String)
    (log : List ((String × Instant) × Except ConnectorError Unit)) : List (Instant × Bool) :=
  log.filter (normalizeHost ·.fst.fst = domain) |>.map fun x => (x.fst.snd, x.snd.isOk)

variable {l : DomainRateLimiter} {config : RateLimitConfig} {domain key : String} {now : Instant}
  {calls : List (String × Instant)}

-- The bucket which a call for the domain uses
def bucket (l : DomainRateLimiter) (domain : String) (now : Instant) : Bucket :=
  (l.inner (normalizeHost domain)).getD (full (limits l.config) now)

-- The tokens it finds there
def available (l : DomainRateLimiter) (domain : String) (now : Instant) : ℚ :=
  ((l.bucket domain now).refill (limits l.config) now).tokens

@[simp]
theorem config_setBucket {b : Bucket} : (l.setBucket domain b).config = l.config :=
  rfl

theorem inner_setBucket {b : Bucket} :
    (l.setBucket domain b).inner key = if key = domain then some b else l.inner key :=
  Function.update_apply _ _ _ _

theorem acquire_eq : l.acquire domain now =
    (if ((l.bucket domain now).acquire (limits l.config) now).fst then .ok ()
      else .error (.rateLimited (normalizeHost domain)),
      l.setBucket (normalizeHost domain)
        ((l.bucket domain now).acquire (limits l.config) now).snd) := by
  have hb : (l.inner (normalizeHost domain)).getD ⟨max l.config.burst 1, now⟩ =
    l.bucket domain now := rfl
  by_cases h : 1 ≤ ((l.bucket domain now).refill (limits l.config) now).tokens
  case pos =>
    have ha : (l.bucket domain now).acquire (limits l.config) now = (true, _) := if_pos h
    rw [ha]
    exact if_pos h
  case neg =>
    have ha : (l.bucket domain now).acquire (limits l.config) now = (false, _) := if_neg h
    rw [ha]
    exact if_neg h

@[simp]
theorem config_acquire : (l.acquire domain now).snd.config = l.config := by
  rw [acquire_eq, config_setBucket]

theorem inner_acquire : (l.acquire domain now).snd.inner key =
    if key = normalizeHost domain then
      some ((l.bucket domain now).acquire (limits l.config) now).snd
    else l.inner key := by
  rw [acquire_eq, inner_setBucket]

theorem isOk_acquire : (l.acquire domain now).fst.isOk =
    ((l.bucket domain now).acquire (limits l.config) now).fst := by
  rw [acquire_eq]
  cases ((l.bucket domain now).acquire (limits l.config) now).fst <;> rfl

theorem acquire_isOk_eq_false :
    (l.acquire domain now).fst.isOk = false ↔ l.available domain now < 1 := by
  rw [isOk_acquire]
  exact acquire_refused

-- The answers of a bucket, which is made for the first call if there is none
def answers (config : RateLimitConfig) : Option Bucket → List Instant → List (Instant × Bool)
  | some b, times      => b.log (limits config) times
  | none,   []         => []
  | none,   now :: ts  => (full (limits config) now).log (limits config) (now :: ts)

theorem answers_cons {b : Option Bucket} {times : List Instant} :
    answers config b (now :: times) =
      (now, ((b.getD (full (limits config) now)).acquire (limits config) now).fst) ::
        answers config (some ((b.getD (full (limits config) now)).acquire (limits config) now).snd)
          times := by
  cases b <;> rfl

-- A domain is answered by its own bucket.
theorem answersFor_run : answersFor key (l.run calls) =
    answers l.config (l.inner key) ((callsFor key calls).map Prod.snd) := by
  induction calls generalizing l
  case nil => cases h : l.inner key <;> rfl
  case cons call calls hi =>
    have ⟨domain, now⟩ := call
    have hi := hi (l := (l.acquire domain now).snd)
    rw [config_acquire, inner_acquire] at hi
    by_cases hk : normalizeHost domain = key
    case pos =>
      have ha : answersFor key (l.run ((domain, now) :: calls)) =
          (now, (l.acquire domain now).fst.isOk) ::
            answersFor key ((l.acquire domain now).snd.run calls) := by
        simp [run, answersFor, hk]
      have hc : callsFor key ((domain, now) :: calls) = (domain, now) :: callsFor key calls := by
        simp [callsFor, hk]
      rw [ha, hi, if_pos hk.symm, hc, List.map_cons, answers_cons, isOk_acquire]
      subst hk
      rfl
    case neg =>
      have ha : answersFor key (l.run ((domain, now) :: calls)) =
          answersFor key ((l.acquire domain now).snd.run calls) := by
        simp [run, answersFor, hk]
      have hc : callsFor key ((domain, now) :: calls) = callsFor key calls := by
        simp [callsFor, hk]
      rw [ha, hi, if_neg (Ne.symm hk), hc]

theorem callsFor_callsFor : callsFor key (callsFor key calls) = callsFor key calls := by
  simp [callsFor]

theorem metered_answers {times : List Instant} (ht : times.Pairwise (· ≤ ·)) :
    Metered (limits config) (answers config none times) := by
  cases times
  case nil =>
    have hm : Metered (limits config) ((full (limits config) 0).log (limits config) []) :=
      metered_log (by simp)
    exact hm
  case cons now ts =>
    refine metered_log (List.pairwise_cons.mpr ⟨fun t hm => ?_, ht⟩)
    rcases List.mem_cons.mp hm with rfl | hm
    case inl => exact le_rfl
    case inr => exact (List.pairwise_cons.mp ht).left t hm

theorem pairwise_callsFor (h : calls.Pairwise (·.snd ≤ ·.snd)) :
    ((callsFor key calls).map Prod.snd).Pairwise (· ≤ ·) :=
  List.pairwise_map.mpr <| h.filter _

end DomainRateLimiter

namespace RateLimiter

theorem one_le_max (perSecond : UInt32) : 1 ≤ (max perSecond 1).toNat := by
  change 1 ≤ (if perSecond ≤ 1 then 1 else perSecond).toNat
  split
  case isTrue    => decide
  case isFalse h => exact (UInt32.lt_iff_toNat_lt.mp (UInt32.not_le.mp h)).le

def limits (perSecond : UInt32) : Limits ℚ where
  burst        := (max perSecond 1).toNat
  rate         := (max perSecond 1).toNat
  one_le_burst := Nat.one_le_cast.mpr (one_le_max perSecond)
  rate_pos     := Nat.cast_pos.mpr (one_le_max perSecond)

def run (l : RateLimiter) : List Instant → List (Instant × Bool)
  | []           => []
  | now :: times => (now, (l.tryAcquire now).fst) :: (l.tryAcquire now).snd.run times

def available (l : RateLimiter) (now : Instant) : ℚ :=
  min (l.inner.tokens + max (now - l.inner.last) 0 * l.perSecond) l.perSecond

variable {l : RateLimiter} {perSecond : UInt32} {now : Instant} {times : List Instant}

theorem tryAcquire_eq (h : l.perSecond = (limits perSecond).rate) : l.tryAcquire now =
    ((l.inner.acquire (limits perSecond) now).fst,
      { l with inner := (l.inner.acquire (limits perSecond) now).snd }) := by
  cases l
  case mk b rate =>
    subst h
    by_cases h : 1 ≤ (b.refill (limits perSecond) now).tokens
    case pos =>
      have ha : b.acquire (limits perSecond) now = (true, _) := if_pos h
      rw [ha]
      exact if_pos h
    case neg =>
      have ha : b.acquire (limits perSecond) now = (false, _) := if_neg h
      rw [ha]
      exact if_neg h

theorem tryAcquire_eq_false : (l.tryAcquire now).fst = false ↔ l.available now < 1 := by
  by_cases h : 1 ≤ l.available now
  case pos =>
    have ha : l.tryAcquire now = (true, _) := if_pos h
    simp [ha, h]
  case neg =>
    have ha : l.tryAcquire now = (false, _) := if_neg h
    simp [ha, lt_of_not_ge h]

theorem run_eq_log (h : l.perSecond = (limits perSecond).rate) :
    l.run times = l.inner.log (limits perSecond) times := by
  induction times generalizing l
  case nil => rfl
  case cons now times hi =>
    rw [run, tryAcquire_eq h]
    exact congrArg _ (hi h)

end RateLimiter

-- Both limiters let through what their buckets hold. A call is refused only by a bucket with less
-- than one token, and the buckets of two domains have nothing to do with each other.
theorem limiters_metered (config : RateLimitConfig) {calls : List (String × Instant)}
    (hc : calls.Pairwise (·.snd ≤ ·.snd)) (perSecond : UInt32) {created : Instant}
    {times : List Instant} (ht : (created :: times).Pairwise (· ≤ ·)) :
    (∀ domain,
      Metered (DomainRateLimiter.limits config)
          (DomainRateLimiter.answersFor domain ((DomainRateLimiter.new config).run calls)) ∧
        DomainRateLimiter.answersFor domain ((DomainRateLimiter.new config).run calls) =
          DomainRateLimiter.answersFor domain ((DomainRateLimiter.new config).run
            (DomainRateLimiter.callsFor domain calls))) ∧
      (∀ (l : DomainRateLimiter) (domain : String) (now : Instant),
        (l.acquire domain now).fst.isOk = false ↔ l.available domain now < 1) ∧
      (∀ (l : RateLimiter) (now : Instant), (l.tryAcquire now).fst = false ↔ l.available now < 1) ∧
      Metered (RateLimiter.limits perSecond) ((RateLimiter.new perSecond created).run times) := by
  refine ⟨fun domain => ⟨?_, ?_⟩, fun l domain now => ?_, fun l now => ?_, ?_⟩
  case refine_1 =>
    rw [DomainRateLimiter.answersFor_run]
    exact DomainRateLimiter.metered_answers (DomainRateLimiter.pairwise_callsFor hc)
  case refine_2 =>
    simp only [DomainRateLimiter.answersFor_run, DomainRateLimiter.callsFor_callsFor]
  case refine_3 => exact DomainRateLimiter.acquire_isOk_eq_false
  case refine_4 => exact RateLimiter.tryAcquire_eq_false
  case refine_5 =>
    have hl : (RateLimiter.new perSecond created).run times =
        (full (RateLimiter.limits perSecond) created).log (RateLimiter.limits perSecond) times :=
      RateLimiter.run_eq_log rfl
    rw [hl]
    exact metered_log ht

theorem limiters_metered_burst :
    Metered (DomainRateLimiter.limits ⟨1, 1⟩) (DomainRateLimiter.answersFor "example.com"
        ((DomainRateLimiter.new ⟨1, 1⟩).run [("Example.com.", 0), ("example.com", 0.5)])) ∧
      Metered (RateLimiter.limits 0) ((RateLimiter.new 0 0).run [0, 0.5]) := by
  have hc : [("Example.com.", (0 : Instant)), ("example.com", 0.5)].Pairwise (·.snd ≤ ·.snd) := by
    norm_num
  have ht : [(0 : Instant), 0, 0.5].Pairwise (· ≤ ·) := by norm_num
  have h := limiters_metered ⟨1, 1⟩ hc 0 ht
  exact ⟨(h.left _).left, h.right.right.right⟩
