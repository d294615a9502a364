import OsintCore.Discovery.Theorems.Store

namespace Discovery

open Resources

section Respects

variable {ε α : Type} {R G : Store → Store → Prop} {Q : α → Store → Prop} {s : Store}

variable {lib : UrlLib} {u : Unicode} {w : Surroundings}

-- What a run writes: pending candidates of a collection
def Fit (pair : Pair) : Prop :=
  pair.fst.status = .pending ∧ pair.fst.collectionId.isSome

theorem mem_graphExpansion {entity : Entity} {collectionId : CollectionId}
    {depth maxDepth : Int32} {entityTypes : Option (List String)} {pairs : List Pair}
    (h : graphExpansion u w entity (some collectionId) depth maxDepth entityTypes = .ok pairs) :
    ∀ pair ∈ pairs, ∃ n node,
      pair = neighborPair u w entity (some collectionId) (depth + 1) n node := by
  unfold graphExpansion at h
  by_cases hd : maxDepth < depth + 1
  case pos =>
    rw [if_pos hd] at h
    rw [← Except.pure_eq_ok.mp h]
    exact fun _ hm => absurd hm List.not_mem_nil
  case neg =>
    rw [if_neg hd] at h
    have ⟨neighbors, _, hp⟩ := Except.bind_eq_ok.mp h
    rw [← Except.pure_eq_ok.mp hp]
    intro pair hm
    obtain ⟨n, hn, rfl⟩ := List.mem_mapIdx.mp hm
    exact ⟨n, _, rfl⟩

theorem fit_graphExpansion {entity : Entity} {collectionId : CollectionId}
    {depth maxDepth : Int32} {entityTypes : Option (List String)} {pairs : List Pair}
    (h : graphExpansion u w entity (some collectionId) depth maxDepth entityTypes = .ok pairs) :
    ∀ pair ∈ pairs, Fit pair := by
  intro pair hm
  obtain ⟨n, node, rfl⟩ := mem_graphExpansion h pair hm
  exact ⟨rfl, rfl⟩

section Expansion

variable (hr : ∀ s, R s s)
include hr

theorem writePair_respects {counts : Counts} {pair : Pair} (hp : Fit pair) :
    (writePair counts pair).Respects R (Store.Step lib) (fun _ _ => True) s := by
  refine Resumption.Respects.bind hr (P := fun _ _ => True) ?_ fun _ _ _ => ?_
  case refine_1 =>
    refine Resumption.respects_transact (fun _ => .idle) fun s' _ t _ hw => ⟨?_, fun _ _ => trivial⟩
    exact .discover hp.left hp.right hw
  case refine_2 => exact Resumption.respects_pure fun _ _ => trivial

theorem writePairs_respects {cap : Nat} {counts : Counts} {pairs : List Pair}
    (hp : ∀ pair ∈ pairs, Fit pair) :
    (writePairs cap counts pairs).Respects R (Store.Step lib) (fun _ _ => True) s := by
  induction pairs generalizing counts s
  case nil => exact Resumption.respects_pure fun _ _ => trivial
  case cons pair pairs hi =>
    have ⟨hf, hp⟩ := List.forall_mem_cons.mp hp
    rw [writePairs]
    split
    case isTrue  => exact Resumption.respects_pure fun _ _ => trivial
    case isFalse => exact (writePair_respects hr hf).bind hr fun _ _ _ => hi hp

theorem writeSources_respects {entity : Entity} {collectionId : CollectionId} {depth : Int32}
    {cap n : Nat} {counts : Counts} {sourceIds : List SourceId} :
    (writeSources u w entity collectionId depth cap n counts sourceIds).Respects R (Store.Step lib)
      (fun _ _ => True) s := by
  induction sourceIds generalizing n counts s
  case nil => exact Resumption.respects_pure fun _ _ => trivial
  case cons sourceId sourceIds hi =>
    rw [writeSources]
    split
    case isTrue  => exact Resumption.respects_pure fun _ _ => trivial
    case isFalse =>
      refine Resumption.respects_ofExcept_bind fun source _ => ?_
      cases source
      case none        => exact hi
      case some source => exact (writePair_respects hr ⟨rfl, rfl⟩).bind hr fun _ _ _ => hi

theorem expandWithin_respects {budget : CollectionBudget} {params : Parameters} {entity : Entity} :
    (expandWithin u w budget params entity).Respects R (Store.Step lib) (fun _ _ => True) s := by
  refine (Resumption.respects_ofExcept (Q := fun pairs _ => ∀ pair ∈ pairs, Fit pair)
    fun _ hp _ _ => fit_graphExpansion hp).bind hr fun pairs _ hp => ?_
  refine (writePairs_respects hr hp).bind hr fun counts _ _ => ?_
  split
  case isTrue => exact Resumption.respects_pure fun _ _ => trivial
  case isFalse =>
    refine Resumption.respects_ofExcept_bind fun sourceIds _ => ?_
    refine (writeSources_respects hr).bind hr fun _ _ _ => ?_
    exact Resumption.respects_pure fun _ _ => trivial

theorem expand_respects {params : Parameters} :
    (expand u w params).Respects R (Store.Step lib) (fun _ _ => True) s := by
  refine Resumption.respects_ofExcept_bind fun entity _ => ?_
  cases entity
  case none => exact Resumption.respects_fail
  case some entity =>
    refine Resumption.respects_ofExcept_bind fun budget _ => ?_
    dsimp only
    split
    case isTrue => exact Resumption.respects_fail
    case isFalse =>
      refine (Resumption.respects_transact (Q := fun _ _ => True) (fun _ => .idle)
        fun s' _ t _ hc => ⟨?_, fun _ _ => trivial⟩).bind hr fun consumption _ _ => ?_
      case refine_1 =>
        unfold consumeRequest at hc
        split at hc
        case h_1 => cases hc; exact .consume _
        case h_2 => cases hc
      case refine_2 =>
        split
        case isTrue  => exact expandWithin_respects hr
        case isFalse => exact Resumption.respects_fail

theorem runGraphExpansion_respects {parameters : Option Json} :
    (runGraphExpansion u w parameters).Respects R (Store.Step lib) (fun _ _ => True) s := by
  refine Resumption.respects_ofExcept_bind fun params _ => ?_
  refine (expand_respects hr).bind hr fun _ _ _ => ?_
  exact Resumption.respects_pure fun _ _ => trivial

end Expansion

section Review

-- What the store answers to a request which has the transaction for itself
def Store.answers (s : Store) (id : CandidateId) (status : CandidateStatus) (now : Timestamp) :
    CandidateAnswers where
  store      := .ok ()
  validated  := .ok (s.candidates.get? id)
  begin      := .ok ()
  current    := .ok (s.candidates.get? id)
  updated    := .ok (s.updateCandidateStatus id status now).fst
  latest     := .ok ((s.updateCandidateStatus id status now).snd.candidates.get? id)
  enqueued _ := .ok ()
  committed  := .ok ()

-- The transaction does what the request does with these answers.
theorem changeStatus_answers {s : Store} {id : CandidateId} {status : CandidateStatus}
    {topic : String} {now : Timestamp} :
    (changeStatus (s.answers id status now) id status topic).run =
      .ok ((s.review id status topic now).map (·.fst)) := by
  cases hg : s.candidates.get? id
  case none =>
    rw [Store.review, Store.getCandidate, hg, changeStatus, Store.answers, hg]
    rfl
  case some row =>
    by_cases hs : row.status = status
    case pos =>
      rw [Store.review_of_eq hg hs, changeStatus, Store.answers, hg]
      exact if_pos hs
    case neg =>
      rw [Store.review_of_ne hg hs rfl, changeStatus, Store.answers, hg,
        Store.updateCandidateStatus_of_ne hg hs rfl, Store.get?_putCandidate hg rfl]
      exact if_neg hs

variable {id : CandidateId} {status : CandidateStatus} {validate : Bool} {now : Timestamp}

theorem respects_ofRequest {x : Request α} (h : ∀ a, x.run = .ok (.ok a) → ∀ s', R s s' → Q a s') :
    (ofRequest x).Respects R G Q s := by
  unfold ofRequest
  split
  case h_1       => trivial
  case h_2       => trivial
  case h_3 a ha => exact h a ha

theorem approvable_of_validateUrl {c : Candidate}
    (h : (validateUrl lib id c).run = .ok (.ok ())) : Approvable lib c := by
  intro ht
  rw [validateUrl, if_pos ht] at h
  cases hc : UrlNorm.canonicalize lib c.value
  case error p =>
    rw [hc] at h
    cases h
  case ok url =>
    rw [hc] at h
    cases url
    case none =>
      cases hs : UrlNorm.short c.value <;> rw [hs] at h <;> cases h
    case some url =>
      by_cases hw : approvableUrlScheme lib c.value
      case pos => exact ⟨⟨url, rfl⟩, hw⟩
      case neg =>
        replace h : (if ¬approvableUrlScheme lib c.value then
            liftM (UrlNorm.short c.value) >>= fun value => throw (notWebUrl id value)
          else pure () : Request Unit).run = .ok (.ok ()) := h
        rw [if_pos hw] at h
        cases hs : UrlNorm.short c.value <;> rw [hs] at h <;> cases h

theorem Approvable.of_core {c c' : Candidate} (hc : core c' = core c) (h : Approvable lib c) :
    Approvable lib c' := by
  have ht := congrArg Candidate.candidateType hc
  have hv := congrArg Candidate.value hc
  change c'.candidateType = c.candidateType at ht
  change c'.value = c.value at hv
  rw [Approvable, ht, hv]
  exact h

-- Before an approval the candidate has been found to be approvable.
def Cleared (lib : UrlLib) (id : CandidateId) (status : CandidateStatus) (s : Store) : Prop :=
  status = .approved → ∃ c, s.candidates.get? id = some c ∧ Approvable lib c

theorem Cleared.keeps {s s' : Store} (h : Cleared lib id status s) (hk : s.Keeps s') :
    Cleared lib id status s' := by
  intro ha
  have ⟨c, hc, hok⟩ := h ha
  have ⟨c', hc', he⟩ := hk id c hc
  exact ⟨c', hc', hok.of_core he⟩

theorem review_respects (h : Cleared lib id status s) :
    (ofRequest (candidateTopic status) >>= fun topic =>
      .transact fun s => (s.review id status topic now).mapError .inr :
        Resumption Store (Panic ⊕ Resources.ApiError) Candidate).Respects Store.Keeps
          (Store.Step lib) (fun _ _ => True) s := by
  refine (respects_ofRequest (Q := fun topic s => Cleared lib id status s ∧
    candidateTopic status = pure topic) fun topic ht s' hk => ⟨h.keeps hk, ht⟩).bind
      (fun _ => .refl) fun topic s ⟨h, ht⟩ => ?_
  refine Resumption.respects_transact (fun _ => .idle) fun s' c t hk hw => ⟨?_, fun _ _ => trivial⟩
  cases hr : s'.review id status topic now
  case error => rw [hr] at hw; cases hw
  case ok r =>
    rw [hr] at hw
    cases hw
    refine .review ht (fun ha c' hc' => ?_) hr
    have ⟨c, hc, hok⟩ := h.keeps hk ha
    rw [hc'] at hc
    cases hc
    exact hok

theorem setCandidateStatus_respects (hv : status = .approved → validate) :
    (setCandidateStatus lib id status validate now).Respects Store.Keeps (Store.Step lib)
      (fun _ _ => True) s := by
  cases validate
  case false => exact review_respects fun ha => absurd (hv ha) Bool.false_ne_true
  case true =>
    refine (Resumption.respects_read (Q := fun c s => ∀ row, c = some row →
      ∃ row', s.candidates.get? id = some row' ∧ core row' = core row) (fun _ _ => .idle)
        fun s' s'' _ hk row hr => hk id row hr).bind (fun _ => .refl) fun c s hc => ?_
    refine (respects_ofRequest (Q := fun _ => Cleared lib id status) fun _ hf s' hk => ?_).bind
      (fun _ => .refl) fun _ s h => review_respects h
    cases c
    case none => cases hf
    case some row =>
      have ⟨row', hr', he⟩ := hc row rfl
      have hok : Approvable lib row := approvable_of_validateUrl hf
      exact Cleared.keeps (fun _ => ⟨row', hr', hok.of_core he⟩) hk

end Review

end Respects

inductive Call
  | expand (w : Surroundings) (parameters : Option Json)
  | approve (id : CandidateId) (now : Timestamp)
  | reject (id : CandidateId) (now : Timestamp)

inductive Answer
  | expanded (r : Except String String)
  | reviewed (r : Except (Panic ⊕ Resources.ApiError) Candidate)

-- The workers and the requests of the reviewers
def Call.program (lib : UrlLib) (u : Unicode) : Call → Resumption Store Empty Answer
  | expand w parameters => .expanded <$> (runGraphExpansion u w parameters).outcome
  | approve id now      => .reviewed <$> (setCandidateStatus lib id .approved true now).outcome
  | reject id now       => .reviewed <$> (setCandidateStatus lib id .rejected false now).outcome

-- Any number of them at once, on a store which may fail at any access
def service {ι : Type} (lib : UrlLib) (u : Unicode) (calls : ι → Call)
    (plan : Nat → Option (Fault String)) :
    Pool ι (Faulty Store String) (String ⊕ Empty) Answer where
  shared   := { state := {}, plan := plan }
  programs := fun i => ((calls i).program lib u).faulty

variable {ι : Type} {lib : UrlLib} {u : Unicode} {calls : ι → Call}
variable {plan : Nat → Option (Fault String)} {s : Store}

theorem Call.program_respects {call : Call} : (call.program lib u).Respects Store.Keeps
    (Store.Step lib) (fun _ _ => True) s := by
  have map {ε α : Type} {x : Resumption Store ε α} {f : Except ε α → Answer}
      (hx : x.Respects Store.Keeps (Store.Step lib) (fun _ _ => True) s) :
      (f <$> x.outcome : Resumption Store Empty Answer).Respects Store.Keeps (Store.Step lib)
        (fun _ _ => True) s :=
    hx.outcome.bind (fun _ => .refl) fun _ _ _ => Resumption.respects_pure fun _ _ => trivial
  cases call
  case expand  => exact map <| runGraphExpansion_respects fun _ => .refl
  case approve => exact map <| setCandidateStatus_respects fun _ => rfl
  case reject  => exact map <| setCandidateStatus_respects nofun

theorem Store.consistent_empty : ({} : Store).Consistent lib where
  unique   := .empty
  distinct := by
    intro _ h
    cases h
  refers   := .empty
  absent _ _ := rfl
  told     := by
    intro _ h
    cases h
  safe     := by
    intro _ h
    cases h

-- The program takes the steps which the model allows, whatever the others do.
def Behaves (lib : UrlLib) (x : Resumption (Faulty Store String) (String ⊕ Empty) Answer)
    (f : Faulty Store String) : Prop :=
  x.Respects (fun f f' => f.state.Keeps f'.state) (fun f f' => f.state.Step lib f'.state)
    (fun _ _ => True) f

theorem pool_consistent [DecidableEq ι] {p : Pool ι (Faulty Store String) (String ⊕ Empty) Answer}
    (hp : ∀ i, Behaves lib (p.programs i) p.shared) (hc : p.shared.state.Consistent lib)
    (schedule : List ι) : ((p.run schedule).shared.state.Consistent lib ∧
      p.shared.state.Keeps (p.run schedule).shared.state) ∧
        ∀ i, Behaves lib ((p.run schedule).programs i) (p.run schedule).shared := by
  let I (f : Faulty Store String) : Prop := f.state.Consistent lib ∧ p.shared.state.Keeps f.state
  refine Pool.respects_run (I := I) (fun _ _ => .refl) (fun h h' => h.trans h') (fun _ _ => .idle)
    (fun _ h => h.keeps) (fun h hi => ?_) ⟨hc, .refl⟩ hp schedule
  exact ⟨hi.left.step h, hi.right.trans h.keeps⟩

-- In every state which is reached, the store is consistent, and what is in it stays.
theorem service_consistent [DecidableEq ι] (lib : UrlLib) (u : Unicode) (calls : ι → Call)
    (plan : Nat → Option (Fault String)) (schedule later : List ι) :
    ((service lib u calls plan).run schedule).shared.state.Consistent lib ∧
      ((service lib u calls plan).run schedule).shared.state.Keeps
        ((service lib u calls plan).run (schedule ++ later)).shared.state := by
  have h (i : ι) :
      Behaves lib ((service lib u calls plan).programs i) (service lib u calls plan).shared :=
    Call.program_respects.faulty fun _ => .idle
  have ⟨⟨hc, _⟩, hp⟩ := pool_consistent h Store.consistent_empty schedule
  have ⟨⟨_, hk⟩, _⟩ := pool_consistent hp hc later
  have he : (service lib u calls plan).run (schedule ++ later) =
      ((service lib u calls plan).run schedule).run later := List.foldl_append
  exact ⟨hc, he ▸ hk⟩

end Discovery
