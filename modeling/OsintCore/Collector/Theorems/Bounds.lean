import OsintCore.Collector.Bounds
import OsintCore.Control.Fold

namespace AcquireStage

-- The call has a slot, or the permit of its domain.
def hasSlot : AcquireStage → Bool
  | map | lookup | domain | running => true
  | slot | closing | gone           => false

def hasDomain : AcquireStage → Bool
  | running | closing                    => true
  | slot | map | lookup | domain | gone  => false

def waits : AcquireStage → Bool
  | slot | map | lookup | domain => true
  | running | closing | gone     => false

end AcquireStage

namespace RunCall

def key (c : RunCall) : String :=
  RunBounds.domainKey c.domain

def holds (key : String) (c : RunCall) : Bool :=
  c.key = key && c.stage.hasDomain

end RunCall

namespace RunBounds

variable {s : RunBounds} {i j : Nat} {c : RunCall} {stage : AcquireStage} {key : String}

-- How many runs hold a permit, and how many hold the permit of a domain.
def holders (s : RunBounds) : Nat :=
  s.calls.countP (·.stage = .running)

def holdersOf (s : RunBounds) (key : String) : Nat :=
  s.calls.countP (·.holds key)

-- If the right calls are polled, this one gets its permit: nothing is released, cancelled or asked
-- for meanwhile.
def Reaches (s : RunBounds) (i : Nat) (domain : String) : Prop :=
  ∃ polls : List Nat, (s.run (polls.map .advance)).calls[i]? = some ⟨domain, .running⟩

-- Some of the calls which wait can get its permit.
def CanProceed (s : RunBounds) : Prop :=
  ∃ (i : Nat) (c : RunCall), s.calls[i]? = some c ∧ c.stage.waits ∧ s.Reaches i c.domain

def WorkConserving (s : RunBounds) : Prop :=
  s.holders < s.globalLimit →
    (∃ c ∈ s.calls, c.stage.waits ∧ s.holdersOf c.key < s.perDomainLimit) → s.CanProceed

-- Every slot is taken, and by a run or by a call whose domain is full; some are taken by such
-- calls, while a call whose domain is not full waits for a slot.
structure Starved (s : RunBounds) : Prop where
  taken   : s.global = 0
  full    : ∀ c ∈ s.calls, c.stage ∈ [.map, .lookup, .domain] → s.holdersOf c.key = s.perDomainLimit
  blocked : s.holders < s.globalLimit
  waiting : ∃ c ∈ s.calls, c.stage = .slot ∧ s.holdersOf c.key < s.perDomainLimit

-- The permits which are free and those which are held make up the limits.
structure Sound (s : RunBounds) : Prop where
  slots   : s.global + s.calls.countP (·.stage.hasSlot) = s.globalLimit
  domains : ∀ key, s.permits key + s.holdersOf key = s.perDomainLimit
  locked  : ∀ i, s.locked = some i ↔ ∃ c, s.calls[i]? = some c ∧ c.stage = .lookup

theorem Sound.new (globalInflight perDomainInflight : UInt32) :
    (new globalInflight perDomainInflight).Sound :=
  ⟨rfl, fun _ => rfl, by simp [RunBounds.new]⟩

theorem getElem?_moveTo {c' : RunCall} (hi : s.calls[i]? = some c') :
    (s.moveTo i c stage).calls[j]? = if j = i then some { c with stage } else s.calls[j]? := by
  have hlt := List.getElem?_eq_some_iff.mp hi |>.fst
  change (s.calls.set i { c with stage })[j]? = _
  rw [List.getElem?_set]
  by_cases hj : j = i
  case pos => simp [hj, hlt]
  case neg => simp [hj, Ne.symm hj]

theorem Sound.locked_iff (h : s.Sound) (hi : s.calls[i]? = some c) :
    s.locked = some i ↔ c.stage = .lookup := by
  simp [h.locked, hi]

-- A call moves on, and the permits with it.
theorem Sound.moveTo {t : RunBounds} (h : s.Sound) (hi : s.calls[i]? = some c)
    (hc : t.calls = s.calls) (hg : t.globalLimit = s.globalLimit)
    (hd : t.perDomainLimit = s.perDomainLimit)
    (hs : t.global + (if stage.hasSlot then 1 else 0) =
      s.global + if c.stage.hasSlot then 1 else 0)
    (hp : ∀ key, t.permits key + (if c.key = key ∧ stage.hasDomain then 1 else 0) =
      s.permits key + if c.key = key ∧ c.stage.hasDomain then 1 else 0)
    (hl : ∀ j, j ≠ i → (t.locked = some j ↔ s.locked = some j))
    (hi' : t.locked = some i ↔ stage = .lookup) : (t.moveTo i c stage).Sound := by
  refine ⟨?_, fun key => ?_, fun j => ?_⟩
  case refine_1 =>
    have hn := List.countP_set_add (b := { c with stage }) (·.stage.hasSlot) hi
    have := h.slots
    change t.global + (t.calls.set i { c with stage }).countP (·.stage.hasSlot) = t.globalLimit
    rw [hc, hg]
    dsimp only at hn
    omega
  case refine_2 =>
    have hn := List.countP_set_add (b := { c with stage }) (·.holds key) hi
    have hk (stage : AcquireStage) : RunCall.holds key { c with stage } ↔
        c.key = key ∧ stage.hasDomain := by
      rw [RunCall.holds, Bool.and_eq_true, decide_eq_true_eq]
      rfl
    have : s.permits key + s.calls.countP (·.holds key) = s.perDomainLimit := h.domains key
    have := hp key
    change t.permits key + (t.calls.set i { c with stage }).countP (·.holds key) = t.perDomainLimit
    rw [hc, hd]
    simp only [hk stage, hk c.stage] at hn
    omega
  case refine_3 =>
    rw [getElem?_moveTo (hc ▸ hi), hc]
    change t.locked = some j ↔ _
    by_cases hj : j = i
    case pos => simp [hj, hi']
    case neg => rw [if_neg hj, hl j hj, h.locked j]

theorem permits_setPermits {n : Nat} {key' : String} :
    (s.setPermits key n).permits key' = if key' = key then n else s.permits key' := by
  by_cases hk : key' = key <;> simp [permits, setPermits, hk]

theorem Sound.advance (h : s.Sound) (hi : s.calls[i]? = some c) : (s.advance i c).Sound := by
  have hloc := h.locked_iff hi
  unfold RunBounds.advance
  cases hs : c.stage
  case slot =>
    rw [hs] at hloc
    dsimp only
    split_ifs with hg
    case neg => exact h
    case pos =>
      refine h.moveTo hi rfl rfl rfl ?_ (fun key => ?_) (fun _ _ => .rfl) (hloc.trans (by decide))
      case refine_1 =>
        simp only [hs, AcquireStage.hasSlot, if_true, Bool.false_eq_true, if_false]
        omega
      case refine_2 => rw [hs]; rfl
  case map =>
    dsimp only
    split_ifs with hn
    case neg => exact h
    case pos =>
      have hn := Option.isNone_iff_eq_none.mp hn
      refine h.moveTo hi rfl rfl rfl ?_ (fun key => ?_) (fun j hj => ?_) (by simp)
      case refine_1 => rw [hs]; rfl
      case refine_2 => rw [hs]; rfl
      case refine_3 => simp [hn, Ne.symm hj]
  case lookup =>
    have hl := hloc.mpr hs
    refine h.moveTo hi rfl rfl rfl ?_ (fun key => ?_) (fun j hj => ?_) (by simp)
    case refine_1 => rw [hs]; rfl
    case refine_2 =>
      change (s.setPermits c.key (s.permits c.key)).permits key + _ = _
      rw [permits_setPermits, hs]
      split_ifs with hk <;> simp_all [AcquireStage.hasDomain]
    case refine_3 => simp [hl, Ne.symm hj]
  case domain =>
    rw [hs] at hloc
    dsimp only
    split_ifs with hn
    case neg => exact h
    case pos =>
      refine h.moveTo hi rfl rfl rfl ?_ (fun key => ?_) (fun _ _ => .rfl) (hloc.trans (by decide))
      case refine_1 => rw [hs]; rfl
      case refine_2 =>
        rw [permits_setPermits, hs]
        by_cases he : key = domainKey c.domain
        case pos => simp [he, RunCall.key, AcquireStage.hasDomain]; omega
        case neg => simp [he, RunCall.key, AcquireStage.hasDomain, Ne.symm he]
  all_goals exact h

theorem Sound.cancel (h : s.Sound) (hi : s.calls[i]? = some c) : (s.cancel i c).Sound := by
  have hloc := h.locked_iff hi
  unfold RunBounds.cancel
  cases hs : c.stage
  case slot =>
    rw [hs] at hloc
    refine h.moveTo hi rfl rfl rfl ?_ (fun key => ?_) (fun _ _ => .rfl) (hloc.trans (by decide))
    all_goals rw [hs]; rfl
  case lookup =>
    have hl := hloc.mpr hs
    refine h.moveTo hi rfl rfl rfl ?_ (fun key => ?_) (fun j hj => ?_) (by simp)
    case refine_1 => rw [hs]; rfl
    case refine_2 => rw [hs]; rfl
    case refine_3 => simp [hl, Ne.symm hj]
  case map | domain =>
    rw [hs] at hloc
    refine h.moveTo hi rfl rfl rfl ?_ (fun key => ?_) (fun _ _ => .rfl) (hloc.trans (by decide))
    all_goals rw [hs]; rfl
  all_goals exact h

theorem Sound.release (h : s.Sound) (hi : s.calls[i]? = some c) : (s.release i c).Sound := by
  have hloc := h.locked_iff hi
  unfold RunBounds.release
  cases hs : c.stage
  case running =>
    rw [hs] at hloc
    refine h.moveTo hi rfl rfl rfl ?_ (fun key => ?_) (fun _ _ => .rfl) (hloc.trans (by decide))
    all_goals rw [hs]; rfl
  case closing =>
    rw [hs] at hloc
    refine h.moveTo hi rfl rfl rfl ?_ (fun key => ?_) (fun _ _ => .rfl) (hloc.trans (by decide))
    case refine_1 => rw [hs]; rfl
    case refine_2 =>
      rw [permits_setPermits, hs]
      by_cases he : key = domainKey c.domain
      case pos => simp [he, RunCall.key, AcquireStage.hasDomain]
      case neg => simp [he, RunCall.key, AcquireStage.hasDomain, Ne.symm he]
  all_goals exact h

theorem Sound.acquire (h : s.Sound) (domain : String) : (s.step (.acquire domain)).Sound := by
  refine ⟨?_, fun key => ?_, fun j => ?_⟩
  case refine_1 => simpa [RunBounds.step, AcquireStage.hasSlot] using h.slots
  case refine_2 =>
    simpa [RunBounds.step, holdersOf, RunCall.holds, AcquireStage.hasDomain, permits]
      using h.domains key
  case refine_3 =>
    refine (h.locked j).trans ?_
    simp only [RunBounds.step, List.getElem?_append]
    split_ifs with hj
    case pos => rfl
    case neg =>
      rw [List.getElem?_eq_none (by omega)]
      simp [List.getElem?_singleton]

theorem Sound.step (h : s.Sound) (event : RunEvent) : (s.step event).Sound := by
  have elim {f : Nat → RunCall → RunBounds}
      (hf : ∀ i c, s.calls[i]? = some c → (f i c).Sound) (i : Nat) :
      (s.calls[i]?.elim s (f i)).Sound := by
    cases hi : s.calls[i]?
    case none   => exact h
    case some c => exact hf i c hi
  cases event
  case acquire domain => exact h.acquire domain
  case advance i      => exact elim (fun _ _ => h.advance) i
  case cancel i       => exact elim (fun _ _ => h.cancel) i
  case release i      => exact elim (fun _ _ => h.release) i

theorem Sound.run (h : s.Sound) (events : List RunEvent) : (s.run events).Sound := by
  induction events generalizing s
  case nil            => exact h
  case cons event l hi => exact hi (h.step event)

theorem Sound.holders_le (h : s.Sound) : s.holders ≤ s.globalLimit := by
  have hn : s.holders ≤ s.calls.countP (·.stage.hasSlot) := by
    refine List.countP_mono_left fun c _ hc => ?_
    simp [of_decide_eq_true hc, AcquireStage.hasSlot]
  have := h.slots
  omega

theorem Sound.holdersOf_le (h : s.Sound) (key : String) : s.holdersOf key ≤ s.perDomainLimit := by
  have := h.domains key
  omega

section Reaches

variable {domain : String}

theorem step_advance (hi : s.calls[i]? = some c) : s.step (.advance i) = s.advance i c := by
  simp [step, hi]

theorem Reaches.of_advance (hj : s.calls[j]? = some c) (h : (s.advance j c).Reaches i domain) :
    s.Reaches i domain := by
  have ⟨polls, hp⟩ := h
  refine ⟨j :: polls, ?_⟩
  rw [← step_advance hj] at hp
  exact hp

variable (key) in
-- A call which has not got as far as its domain changes no domain.
theorem holdersOf_advance (hi : s.calls[i]? = some c) (hc : c.stage ∈ [.slot, .map, .lookup]) :
    (s.advance i c).holdersOf key = s.holdersOf key ∧
      (s.advance i c).perDomainLimit = s.perDomainLimit := by
  have hm (stage : AcquireStage) (hn : stage.hasDomain = false) :
      (s.calls.set i { c with stage }).countP (·.holds key) = s.calls.countP (·.holds key) := by
    have := List.countP_set_add (b := { c with stage }) (·.holds key) hi
    have : c.stage.hasDomain = false := by cases hs : c.stage <;> simp_all [AcquireStage.hasDomain]
    simp_all [RunCall.holds]
  unfold advance
  cases hs : c.stage
  case slot   => dsimp only; split_ifs <;> exact ⟨by first | rfl | exact hm _ rfl, rfl⟩
  case map    => dsimp only; split_ifs <;> exact ⟨by first | rfl | exact hm _ rfl, rfl⟩
  case lookup => exact ⟨hm _ rfl, rfl⟩
  all_goals simp [hs] at hc

theorem Sound.reaches_domain (h : s.Sound) (hi : s.calls[i]? = some ⟨domain, .domain⟩)
    (hf : s.holdersOf (domainKey domain) < s.perDomainLimit) : s.Reaches i domain := by
  have hp : 0 < s.permits (domainKey domain) := by
    have := h.domains (domainKey domain)
    omega
  refine .of_advance hi ⟨[], ?_⟩
  simp only [RunBounds.advance, if_pos hp]
  exact (getElem?_moveTo hi).trans (if_pos rfl)

theorem Sound.reaches_lookup (h : s.Sound) (hi : s.calls[i]? = some ⟨domain, .lookup⟩)
    (hf : s.holdersOf (domainKey domain) < s.perDomainLimit) : s.Reaches i domain := by
  have ⟨hh, hl⟩ := holdersOf_advance (domainKey domain) hi (by simp)
  refine .of_advance hi <| (h.advance hi).reaches_domain ?_ (hl ▸ hh ▸ hf)
  exact (getElem?_moveTo hi).trans (if_pos rfl)

-- The call which holds the map is polled first.
theorem Sound.reaches_map (h : s.Sound) (hi : s.calls[i]? = some ⟨domain, .map⟩)
    (hf : s.holdersOf (domainKey domain) < s.perDomainLimit) : s.Reaches i domain := by
  have free {s : RunBounds} (h : s.Sound) (hi : s.calls[i]? = some ⟨domain, .map⟩)
      (hf : s.holdersOf (domainKey domain) < s.perDomainLimit) (hn : s.locked = none) :
      s.Reaches i domain := by
    have ⟨hh, hl⟩ := holdersOf_advance (domainKey domain) hi (by simp)
    refine .of_advance hi <| (h.advance hi).reaches_lookup ?_ (hl ▸ hh ▸ hf)
    simp only [RunBounds.advance, hn, Option.isNone_none, if_true]
    exact (getElem?_moveTo hi).trans (if_pos rfl)
  cases hn : s.locked
  case none   => exact free h hi hf hn
  case some j =>
    have ⟨c, hj, hc⟩ := (h.locked j).mp hn
    have hne : i ≠ j := by
      rintro rfl
      rw [hi] at hj
      cases hj
      cases hc
    have ⟨hh, hl⟩ := holdersOf_advance (domainKey domain) hj (by simp [hc])
    refine .of_advance hj <| free (h.advance hj) ?_ (hl ▸ hh ▸ hf) ?_
    all_goals simp only [RunBounds.advance, hc]
    case refine_1 => exact (getElem?_moveTo hj).trans ((if_neg hne).trans hi)
    case refine_2 => rfl

theorem Sound.reaches_slot (h : s.Sound) (hi : s.calls[i]? = some ⟨domain, .slot⟩)
    (hg : 0 < s.global) (hf : s.holdersOf (domainKey domain) < s.perDomainLimit) :
    s.Reaches i domain := by
  have ⟨hh, hl⟩ := holdersOf_advance (domainKey domain) hi (by simp)
  refine .of_advance hi <| (h.advance hi).reaches_map ?_ (hl ▸ hh ▸ hf)
  simp only [RunBounds.advance, if_pos hg]
  exact (getElem?_moveTo hi).trans (if_pos rfl)

end Reaches

-- No slot is free, and every domain for which a call has a slot is full.
def Stuck (s : RunBounds) : Prop :=
  s.global = 0 ∧ ∀ c ∈ s.calls, c.stage ∈ [.map, .lookup, .domain] → s.permits c.key = 0

def StillWaits (s : RunBounds) (i : Nat) : Prop :=
  ∃ c, s.calls[i]? = some c ∧ c.stage.waits

-- A call which has no permit to wait for any more goes on, but not past its domain.
theorem Stuck.moveTo {t : RunBounds} (h : s.Stuck) (hj : s.calls[j]? = some c)
    (hc : t.calls = s.calls) (hg : t.global = s.global) (hp : ∀ key, t.permits key = s.permits key)
    (hs : c.stage ∈ [.map, .lookup]) (ht : stage ∈ [.lookup, .domain]) (hw : s.StillWaits i) :
    (t.moveTo j c stage).Stuck ∧ (t.moveTo j c stage).StillWaits i := by
  refine ⟨⟨hg.trans h.left, fun c' hc' hs' => ?_⟩, ?_⟩
  case refine_1 =>
    have hm : c' ∈ s.calls.set j { c with stage } := hc ▸ hc'
    refine (hp c'.key).trans ?_
    obtain hm | rfl := List.mem_or_eq_of_mem_set hm
    · exact h.right c' hm hs'
    · refine h.right c (List.mem_of_getElem? hj) ?_
      cases hcs : c.stage <;> simp_all
  case refine_2 =>
    have ⟨w, hw, hwait⟩ := hw
    rw [StillWaits, getElem?_moveTo (hc ▸ hj), hc]
    by_cases hi : i = j
    case neg => exact ⟨w, (if_neg hi).trans hw, hwait⟩
    case pos =>
      refine ⟨_, if_pos hi, ?_⟩
      cases stage <;> simp_all [AcquireStage.waits]

theorem Stuck.advance (h : s.Stuck) (hj : s.calls[j]? = some c) (hw : s.StillWaits i) :
    (s.advance j c).Stuck ∧ (s.advance j c).StillWaits i := by
  unfold RunBounds.advance
  cases hs : c.stage
  case slot =>
    dsimp only
    rw [if_neg (by rw [h.left]; exact lt_irrefl 0)]
    exact ⟨h, hw⟩
  case map =>
    dsimp only
    split_ifs with hn
    case neg => exact ⟨h, hw⟩
    case pos => exact h.moveTo hj rfl rfl (fun _ => rfl) (by simp [hs]) (by simp) hw
  case lookup =>
    refine h.moveTo hj rfl rfl (fun key => ?_) (by simp [hs]) (by simp) hw
    refine permits_setPermits.trans ?_
    split_ifs with hk
    case pos => rw [hk]
    case neg => rfl
  case domain =>
    have hp : s.permits (domainKey c.domain) = 0 :=
      h.right c (List.mem_of_getElem? hj) (by simp [hs])
    dsimp only
    rw [if_neg (by rw [hp]; exact lt_irrefl 0)]
    exact ⟨h, hw⟩
  all_goals exact ⟨h, hw⟩

theorem Stuck.polls (h : s.Stuck) (hw : s.StillWaits i) (polls : List Nat) :
    (s.run (polls.map .advance)).StillWaits i := by
  induction polls generalizing s
  case nil          => exact hw
  case cons j l hi =>
    cases hj : s.calls[j]?
    case none =>
      have : s.step (.advance j) = s := by simp [step, hj]
      exact hi (this.symm ▸ h) (this.symm ▸ hw)
    case some c =>
      have ⟨h', hw'⟩ := h.advance hj hw
      rw [← step_advance hj] at h' hw'
      exact hi h' hw'

theorem Starved.not_canProceed (h : s.Sound) (hs : s.Starved) : ¬s.CanProceed := by
  intro ⟨i, c, hi, hw, polls, hr⟩
  have hstuck : s.Stuck := by
    refine ⟨hs.taken, fun c hc hst => ?_⟩
    have := hs.full c hc hst
    have := h.domains c.key
    omega
  have ⟨c', hc', hw'⟩ := hstuck.polls ⟨c, hi, hw⟩ polls
  rw [hr] at hc'
  cases hc'
  cases hw'

-- A call whose domain is not full can get its permit once it has a slot, or while one is free.
theorem Sound.reaches (h : s.Sound) (hi : s.calls[i]? = some c)
    (hf : s.holdersOf c.key < s.perDomainLimit)
    (hs : c.stage ∈ [.map, .lookup, .domain] ∨ c.stage = .slot ∧ 0 < s.global) :
    s.Reaches i c.domain := by
  have ⟨domain, stage⟩ := c
  obtain hs | ⟨hs, hg⟩ := hs
  · simp only [List.mem_cons, List.not_mem_nil, or_false] at hs
    obtain rfl | rfl | rfl := hs
    · exact h.reaches_map hi hf
    · exact h.reaches_lookup hi hf
    · exact h.reaches_domain hi hf
  · obtain rfl : stage = .slot := hs
    exact h.reaches_slot hi hg hf

theorem Sound.workConserving_iff (h : s.Sound) : s.WorkConserving ↔ ¬s.Starved := by
  constructor
  case mp =>
    intro hc hs
    have ⟨c, hm, hst, hf⟩ := hs.waiting
    exact hs.not_canProceed h (hc hs.blocked ⟨c, hm, by simp [hst, AcquireStage.waits], hf⟩)
  case mpr =>
    intro hs hb ⟨c, hm, hw, hf⟩
    by_contra hn
    -- No call with a slot goes to a domain which is not full.
    have hfull : ∀ c ∈ s.calls, c.stage ∈ [.map, .lookup, .domain] →
        s.holdersOf c.key = s.perDomainLimit := by
      intro c hm hst
      by_contra hne
      have ⟨i, hi⟩ := List.getElem?_of_mem hm
      have hlt : s.holdersOf c.key < s.perDomainLimit := lt_of_le_of_ne (h.holdersOf_le _) hne
      refine hn ⟨i, c, hi, ?_, h.reaches hi hlt (.inl hst)⟩
      cases hc : c.stage <;> simp_all [AcquireStage.waits]
    have hslot : c.stage = .slot := by
      have := hfull c hm
      cases hc : c.stage <;> simp_all [AcquireStage.waits]
    have hg : s.global = 0 := by
      by_contra hg
      have ⟨i, hi⟩ := List.getElem?_of_mem hm
      exact hn ⟨i, c, hi, hw, h.reaches hi hf (.inr ⟨hslot, Nat.pos_of_ne_zero hg⟩)⟩
    exact hs ⟨hg, hfull, hb, c, hm, hslot, hf⟩

end RunBounds

-- The bounds hold in every state; permits are put to use unless calls which wait for full domains
-- keep the slots from one whose domain is not full.
theorem run_bounds_iff (globalInflight perDomainInflight : UInt32) (events : List RunEvent) :
    let s := (RunBounds.new globalInflight perDomainInflight).run events
    s.holders ≤ s.globalLimit ∧ (∀ key, s.holdersOf key ≤ s.perDomainLimit) ∧
      (s.WorkConserving ↔ ¬s.Starved) := by
  have h := (RunBounds.Sound.new globalInflight perDomainInflight).run events
  exact ⟨h.holders_le, h.holdersOf_le, h.workConserving_iff⟩

namespace Sample

-- The second call for the first domain keeps a slot while it waits, and the third call has none.
def waitingForDomain : List RunEvent :=
  [.acquire "a.example.invalid", .acquire " A.Example.invalid. ", .acquire "b.example.invalid",
    .advance 0, .advance 0, .advance 0, .advance 0, .advance 1, .advance 1, .advance 1, .advance 1,
    .advance 2]

end Sample

theorem not_run_bounds : ¬∀ (globalInflight perDomainInflight : UInt32) (events : List RunEvent),
    let s := (RunBounds.new globalInflight perDomainInflight).run events
    s.holders ≤ s.globalLimit ∧ (∀ key, s.holdersOf key ≤ s.perDomainLimit) ∧ s.WorkConserving := by
  intro h
  have ⟨_, _, hw⟩ := h 2 1 Sample.waitingForDomain
  have hs := (RunBounds.Sound.new 2 1).run Sample.waitingForDomain
  have hb : ((RunBounds.new 2 1).run Sample.waitingForDomain).Starved :=
    ⟨by decide +kernel, by decide +kernel, by decide +kernel, by decide +kernel⟩
  exact hs.workConserving_iff.mp hw hb
