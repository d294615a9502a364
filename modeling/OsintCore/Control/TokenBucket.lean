import Mathlib

-- Tokens which are refilled at a constant rate, whenever one is asked for.
structure TokenBucket (K : Type) where
  tokens : K
  last   : K

namespace TokenBucket

section

variable {K : Type} [LinearOrder K] {now start stop : K} {l : List (K × Bool)}

-- How many calls between the two times, the ends included, are granted.
def grants (log : List (K × Bool)) (start stop : K) : Nat :=
  log.countP fun (now, granted) => granted && decide (start ≤ now) && decide (now ≤ stop)

@[simp]
theorem grants_nil : grants ([] : List (K × Bool)) start stop = 0 :=
  rfl

theorem grants_cons {granted : Bool} : grants ((now, granted) :: l) start stop =
    grants l start stop + if granted && decide (start ≤ now) && decide (now ≤ stop) then 1 else 0 :=
  List.countP_cons

theorem grants_eq_zero (h : ∀ x ∈ l, stop < x.fst) : grants l start stop = 0 := by
  apply List.countP_eq_zero.mpr
  intro x hx
  simp [h x hx]

-- A later end leaves nothing out.
theorem grants_mono {stop' : K} (h : stop ≤ stop') :
    grants l start stop ≤ grants l start stop' := by
  apply List.countP_mono_left
  intro x _ hx
  simp only [Bool.and_eq_true, decide_eq_true_eq] at hx ⊢
  exact ⟨hx.left, hx.right.trans h⟩

theorem grants_append {l' : List (K × Bool)} :
    grants (l ++ l') start stop = grants l start stop + grants l' start stop :=
  List.countP_append

end

variable {K : Type} [Field K] [LinearOrder K] [IsStrictOrderedRing K]

structure Limits (K : Type) [Field K] [LinearOrder K] where
  burst        : K
  rate         : K
  one_le_burst : 1 ≤ burst
  rate_pos     : 0 < rate

variable (lim : Limits K)

def full (now : K) : TokenBucket K where
  tokens := lim.burst
  last   := now

def refill (now : K) (b : TokenBucket K) : TokenBucket K where
  tokens := min (b.tokens + max (now - b.last) 0 * lim.rate) lim.burst
  last   := now

def acquire (now : K) (b : TokenBucket K) : Bool × TokenBucket K :=
  let b := b.refill lim now
  if 1 ≤ b.tokens then (true, { b with tokens := b.tokens - 1 }) else (false, b)

-- The times of the calls with their answers
def log : TokenBucket K → List K → List (K × Bool)
  | _, []       => []
  | b, now :: l => (now, (b.acquire lim now).fst) :: log (b.acquire lim now).snd l

-- A window never has more grants than the burst and what is refilled in the meantime, and with a
-- refusal a window ends which leaves less than one of them.
structure Metered (log : List (K × Bool)) : Prop where
  bounded : ∀ start length, 0 ≤ length →
    grants log start (start + length) ≤ lim.burst + lim.rate * length
  refused : ∀ before now after, log = before ++ (now, false) :: after →
    ∃ start ≤ now, lim.burst - 1 + lim.rate * (now - start) < grants before start now

-- Neither overdrawn nor overfull
structure Level (b : TokenBucket K) : Prop where
  nonneg   : 0 ≤ b.tokens
  le_burst : b.tokens ≤ lim.burst

variable {lim} {b : TokenBucket K} {now start stop : K} {times : List K} {l : List (K × Bool)}

theorem level_full : (full lim now).Level lim where
  nonneg   := zero_le_one.trans lim.one_le_burst
  le_burst := le_rfl

theorem Level.refill (h : b.Level lim) : (b.refill lim now).Level lim where
  nonneg := by
    have hm : 0 ≤ max (now - b.last) 0 * lim.rate := mul_nonneg (le_max_right _ _) lim.rate_pos.le
    exact le_min (add_nonneg h.nonneg hm) <| zero_le_one.trans lim.one_le_burst
  le_burst := min_le_right _ _

omit [IsStrictOrderedRing K] in
@[simp]
theorem last_refill : (b.refill lim now).last = now :=
  rfl

omit [IsStrictOrderedRing K] in
@[simp]
theorem last_acquire : (b.acquire lim now).snd.last = now := by
  by_cases h : 1 ≤ (b.refill lim now).tokens <;> simp [acquire, h]

omit [IsStrictOrderedRing K] in
theorem acquire_refused : (b.acquire lim now).fst = false ↔ (b.refill lim now).tokens < 1 := by
  by_cases h : 1 ≤ (b.refill lim now).tokens
  case pos => simp [acquire, h]
  case neg => simp [acquire, h, lt_of_not_ge h]

omit [IsStrictOrderedRing K] in
-- A grant takes one token.
theorem tokens_acquire : (b.acquire lim now).snd.tokens =
    (b.refill lim now).tokens - if (b.acquire lim now).fst then 1 else 0 := by
  by_cases h : 1 ≤ (b.refill lim now).tokens <;> simp [acquire, h]

theorem Level.acquire (h : b.Level lim) : (b.acquire lim now).snd.Level lim where
  nonneg := by
    rw [tokens_acquire]
    split
    case isTrue hg =>
      have := mt acquire_refused.mpr (by simpa using hg)
      linarith
    case isFalse => simpa using h.refill.nonneg
  le_burst := by
    have hr : (b.refill lim now).tokens ≤ lim.burst := h.refill.le_burst
    rw [tokens_acquire]
    split <;> linarith

theorem tokens_refill_le (ht : b.last ≤ now) :
    (b.refill lim now).tokens ≤ b.tokens + lim.rate * (now - b.last) := by
  have hm : max (now - b.last) 0 = now - b.last := max_eq_left (sub_nonneg.mpr ht)
  exact (min_le_left _ _).trans_eq (by rw [hm, mul_comm])

omit [IsStrictOrderedRing K] in
@[simp]
theorem map_fst_log : (b.log lim times).map Prod.fst = times := by
  induction times generalizing b
  case nil            => rfl
  case cons t ts hi => exact congrArg _ hi

omit [IsStrictOrderedRing K] in
theorem grants_log_eq_zero (h : ∀ t ∈ times, stop < t) :
    grants (b.log lim times) start stop = 0 := by
  apply grants_eq_zero
  intro x hx
  have hm : x.fst ∈ (b.log lim times).map Prod.fst := List.mem_map_of_mem hx
  rw [map_fst_log] at hm
  exact h _ hm

theorem grants_log_cons_le
    (h : (grants ((b.acquire lim now).snd.log lim times) start stop : K) ≤
      (b.acquire lim now).snd.tokens + lim.rate * (stop - now)) :
    (grants (b.log lim (now :: times)) start stop : K) ≤
      (b.refill lim now).tokens + lim.rate * (stop - now) := by
  rw [tokens_acquire] at h
  rw [log, grants_cons]
  push_cast
  cases hg : (b.acquire lim now).fst
  case false =>
    simp only [hg, Bool.false_and, Bool.false_eq_true, if_false] at h ⊢
    linarith
  case true =>
    have : (if decide (start ≤ now) && decide (now ≤ stop) then 1 else 0 : K) ≤ 1 := by
      split <;> simp
    simp only [hg, Bool.true_and, if_true] at h ⊢
    linarith

theorem Level.nonneg_until (h : b.Level lim) (hb : b.last ≤ stop) :
    0 ≤ b.tokens + lim.rate * (stop - b.last) :=
  add_nonneg h.nonneg <| mul_nonneg lim.rate_pos.le (sub_nonneg.mpr hb)

-- What is granted has been in the bucket or has been refilled.
theorem grants_log_le (h : b.Level lim) (hs : (b.last :: times).Pairwise (· ≤ ·))
    (hb : b.last ≤ stop) :
    (grants (b.log lim times) start stop : K) ≤ b.tokens + lim.rate * (stop - b.last) := by
  induction times generalizing b
  case nil => simpa [log] using h.nonneg_until hb
  case cons now times hi =>
    have ⟨hl, hs⟩ := List.pairwise_cons.mp hs
    by_cases hn : now ≤ stop
    case pos =>
      have hb' : (b.acquire lim now).snd.last ≤ stop := by simpa using hn
      have hi := hi h.acquire (by simpa using hs) hb'
      rw [last_acquire] at hi
      have hc := grants_log_cons_le hi
      have ht : (b.refill lim now).tokens ≤ b.tokens + lim.rate * (now - b.last) :=
        tokens_refill_le (hl _ List.mem_cons_self)
      linarith
    case neg =>
      have hz : grants (b.log lim (now :: times)) start stop = 0 := by
        apply grants_log_eq_zero
        intro t ht
        rcases List.mem_cons.mp ht with rfl | ht
        case inl => exact lt_of_not_ge hn
        case inr => exact (lt_of_not_ge hn).trans_le <| (List.pairwise_cons.mp hs).left t ht
      rw [hz]
      simpa using h.nonneg_until hb

-- The first call of a window finds a full bucket at best.
theorem grants_log_window_le (h : b.Level lim) (hs : times.Pairwise (· ≤ ·))
    (hw : start ≤ stop) :
    (grants (b.log lim times) start stop : K) ≤ lim.burst + lim.rate * (stop - start) := by
  have hr := mul_nonneg lim.rate_pos.le (sub_nonneg.mpr hw)
  have hb : (0 : K) ≤ lim.burst := zero_le_one.trans lim.one_le_burst
  induction times generalizing b
  case nil => simpa [log] using add_nonneg hb hr
  case cons now times hi =>
    by_cases hn : start ≤ now ∧ now ≤ stop
    case pos =>
      have hb' : (b.acquire lim now).snd.last ≤ stop := by simpa using hn.right
      have hg : (grants ((b.acquire lim now).snd.log lim times) start stop : K) ≤ _ :=
        grants_log_le h.acquire (by simpa using hs) hb'
      rw [last_acquire] at hg
      have hc := grants_log_cons_le hg
      have ht : (b.refill lim now).tokens ≤ lim.burst := h.refill.le_burst
      have hm := mul_le_mul_of_nonneg_left hn.left lim.rate_pos.le
      linarith
    case neg =>
      have ha : (b.acquire lim now).snd.Level lim := h.acquire
      have hi := hi ha (List.pairwise_cons.mp hs).right
      rw [log, grants_cons, if_neg (by simpa using fun _ => not_and.mp hn)]
      simpa using hi

-- Since some time the bucket has never been full, so that what has been refilled is still in it
-- unless it has been granted.
def Backed (lim : Limits K) (before : List (K × Bool)) (b : TokenBucket K) : Prop :=
  ∃ start ≤ b.last,
    lim.burst + lim.rate * (b.last - start) ≤ b.tokens + grants before start b.last

theorem backed_full : Backed lim l (full lim now) :=
  ⟨now, le_rfl, by simp [full]⟩

theorem Backed.refill (h : Backed lim l b) (ht : b.last ≤ now) :
    Backed lim l (b.refill lim now) := by
  have ⟨start, hs, h⟩ := h
  have hm : max (now - b.last) 0 = now - b.last := max_eq_left (sub_nonneg.mpr ht)
  by_cases hf : b.tokens + (now - b.last) * lim.rate ≤ lim.burst
  case pos =>
    refine ⟨start, hs.trans ht, ?_⟩
    have hg : (grants l start b.last : K) ≤ grants l start now := by exact_mod_cast grants_mono ht
    simp only [TokenBucket.refill, hm, min_eq_left hf]
    linarith
  case neg =>
    refine ⟨now, le_rfl, ?_⟩
    simp [TokenBucket.refill, hm, min_eq_right (le_of_not_ge hf)]

theorem Backed.acquire (h : Backed lim l b) (ht : b.last ≤ now) :
    Backed lim (l ++ [(now, (b.acquire lim now).fst)]) (b.acquire lim now).snd := by
  have ⟨start, hs, h⟩ := h.refill ht
  refine ⟨start, by simpa using hs, ?_⟩
  rw [last_refill] at hs h
  rw [tokens_acquire, last_acquire, grants_append, grants_cons]
  simp only [hs, decide_true, le_refl, Bool.and_true, grants_nil, zero_add]
  push_cast
  linarith

-- Less than one token is left of what has been refilled since then.
theorem Backed.refused (h : Backed lim l b) (ht : b.last ≤ now)
    (hr : (b.acquire lim now).fst = false) :
    ∃ start ≤ now, lim.burst - 1 + lim.rate * (now - start) < grants l start now := by
  have ⟨start, hs, h⟩ := h.refill ht
  have hr := acquire_refused.mp hr
  rw [last_refill] at hs h
  exact ⟨start, hs, by linarith⟩

theorem Backed.log (h : Backed lim l b) (hs : (b.last :: times).Pairwise (· ≤ ·))
    {before after : List (K × Bool)} (he : b.log lim times = before ++ (now, false) :: after) :
    ∃ start ≤ now, lim.burst - 1 + lim.rate * (now - start) < grants (l ++ before) start now := by
  induction times generalizing b l before
  case nil => simp [TokenBucket.log] at he
  case cons t times hi =>
    have ⟨hl, hs⟩ := List.pairwise_cons.mp hs
    have ht : b.last ≤ t := hl _ List.mem_cons_self
    cases before
    case nil =>
      have ⟨he, _⟩ := List.cons.inj he
      have ⟨rfl, hr⟩ := Prod.mk.inj he
      simpa using h.refused ht hr
    case cons x before =>
      have ⟨hx, ha⟩ := List.cons.inj he
      subst hx
      have hi := hi (h.acquire ht) (by simpa using hs) ha
      rwa [List.append_assoc] at hi

theorem metered_log (hs : (now :: times).Pairwise (· ≤ ·)) :
    Metered lim ((full lim now).log lim times) where
  bounded start length hl := by
    have hg : (grants ((full lim now).log lim times) start (start + length) : K) ≤ _ :=
      grants_log_window_le level_full (List.pairwise_cons.mp hs).right (by simpa using hl)
    simpa using hg
  refused before t after he := by
    have hb : Backed lim [] (full lim now) := backed_full
    exact hb.log hs he

end TokenBucket
