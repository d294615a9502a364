import OsintCore.Discovery.Theorems.Interleaving

namespace Discovery

open Resources

-- The rows which have been added: new candidates which are pending at the depth, an event for each of
-- them, and evidence. No request has been used.
structure Added (collectionId : CollectionId) (depth : Int32) (created : List Candidate)
    (found : List CandidateEvidence) (s s' : Store) : Prop where
  requests   : s'.requests = s.requests
  candidates : ∀ c, c ∈ s'.candidates ↔ c ∈ s.candidates ∨ c ∈ created
  nodup      : (created.map (·.id)).Nodup
  fresh      : ∀ c ∈ created, s.candidates.get? c.id = none
  pending    : ∀ c ∈ created, c.status = .pending ∧ c.depth = depth ∧
               c.collectionId = some collectionId
  outbox     : s'.outbox = s.outbox ++ created.map fun c => Store.createdEvent c c.id
  evidence   : ∀ e ∈ s'.evidence, e ∈ s.evidence ∨ e ∈ found
  kept       : ∀ e ∈ s.evidence, e ∈ s'.evidence ∨ ∃ e' ∈ found, e'.id = e.id

-- So many candidates at most have been added, and as many pieces of evidence.
def Adds (collectionId : CollectionId) (depth : Int32) (n : Nat) (s s' : Store) : Prop :=
  ∃ created found, created.length ≤ n ∧ found.length ≤ n ∧
    Added collectionId depth created found s s'

variable {u : Unicode} {w : Surroundings} {s s' t t' : Store} {pair : Pair} {pairs : List Pair}
variable {counts : Counts} {collectionId : CollectionId} {depth : Int32} {cap n n' : Nat}
variable {entity : Entity} {budget : CollectionBudget} {params : Parameters} {c : Candidate}
variable {e : CandidateEvidence} {id : CandidateId} {outcome : CandidateDiscoveryOutcome}
variable {created : List Candidate} {found : List CandidateEvidence}

theorem Adds.refl : Adds collectionId depth 0 s s := by
  refine ⟨[], [], le_rfl, le_rfl, rfl, fun c => ?_, .nil, ?_, ?_, (List.append_nil _).symm,
    fun _ => .inl, fun _ => .inl⟩
  case refine_1 => rw [or_iff_left List.not_mem_nil]
  case refine_2 => exact List.forall_mem_nil _
  case refine_3 => exact List.forall_mem_nil _

theorem Adds.mono (h : Adds collectionId depth n s s') (hn : n ≤ n') :
    Adds collectionId depth n' s s' := by
  obtain ⟨created, found, hc, hf, ha⟩ := h
  exact ⟨created, found, hc.trans hn, hf.trans hn, ha⟩

-- The evidence is put, unless there is the same already.
theorem Added.attach (h : Added collectionId depth created found s t) :
    ∃ e', Added collectionId depth created (e' :: found) s (t.attach id e) := by
  refine ⟨{ e with candidateId := id }, ?_⟩
  unfold Store.attach
  split
  case isTrue =>
    refine { h with evidence := fun x hx => ?_, kept := fun x hx => ?_ }
    case refine_1 => exact (h.evidence x hx).imp_right (List.mem_cons_of_mem _)
    case refine_2 =>
      refine (h.kept x hx).imp_right fun hk => ?_
      obtain ⟨x', hx', he⟩ := hk
      exact ⟨x', List.mem_cons_of_mem _ hx', he⟩
  case isFalse =>
    refine ⟨h.requests, h.candidates, h.nodup, h.fresh, h.pending, h.outbox, fun x hx => ?_,
      fun x hx => ?_⟩
    case refine_1 =>
      obtain rfl | hx := Table.mem_put.mp hx
      · exact .inr List.mem_cons_self
      · exact (h.evidence x hx.left).imp_right (List.mem_cons_of_mem _)
    case refine_2 =>
      obtain hk | ⟨x', hx', he⟩ := h.kept x hx
      · by_cases hi : x.id = e.id
        case pos => exact .inr ⟨_, List.mem_cons_self, hi.symm⟩
        case neg => exact .inl <| Table.mem_put.mpr <| .inr ⟨hk, hi⟩
      · exact .inr ⟨x', List.mem_cons_of_mem _ hx', he⟩

theorem Added.create (h : Added collectionId depth created found s t)
    (hn : t.candidates.get? c.id = none) (hp : c.status = .pending) (hd : c.depth = depth)
    (hc : c.collectionId = some collectionId) : Added collectionId depth (created ++ [c]) found s
      ((t.putCandidate c).enqueueOutbox (Store.createdEvent c c.id)) where
  requests   := h.requests
  candidates x := by
    have hx : x ∈ t.candidates.put c ↔ x = c ∨ x ∈ t.candidates := by
      refine Table.mem_put.trans <| or_congr_right <| and_iff_left_of_imp fun hm => ?_
      exact Table.get?_eq_none.mp hn x hm
    refine hx.trans ?_
    rw [h.candidates, List.mem_append, List.mem_singleton]
    tauto
  nodup      := by
    rw [List.map_append, List.nodup_append]
    refine ⟨h.nodup, List.nodup_singleton _, fun a ha b hb he => ?_⟩
    obtain ⟨x, hx, rfl⟩ := List.mem_map.mp ha
    rw [List.map_singleton, List.mem_singleton] at hb
    exact Table.get?_eq_none.mp hn x ((h.candidates x).mpr (.inr hx)) (he.trans hb)
  fresh      := by
    refine List.forall_mem_append.mpr ⟨h.fresh, List.forall_mem_singleton.mpr ?_⟩
    refine Table.get?_eq_none.mpr fun x hx => ?_
    exact Table.get?_eq_none.mp hn x ((h.candidates x).mpr (.inl hx))
  pending    := List.forall_mem_append.mpr ⟨h.pending, List.forall_mem_singleton.mpr ⟨hp, hd, hc⟩⟩
  outbox     := by
    change t.outbox ++ _ = _
    rw [h.outbox, List.map_append, List.append_assoc]
    rfl
  evidence   := h.evidence
  kept       := h.kept

-- What a run looks for: pending candidates of its collection at the depth
def Sought (collectionId : CollectionId) (depth : Int32) (pair : Pair) : Prop :=
  pair.fst.status = .pending ∧ pair.fst.depth = depth ∧ pair.fst.collectionId = some collectionId

theorem Adds.write (h : Adds collectionId depth n s t) (hp : Sought collectionId depth pair)
    (hw : t.writeCandidateWithOutbox pair.fst pair.snd = .ok (outcome, t')) :
    Adds collectionId depth (n + 1) s t' := by
  obtain ⟨created, found, hc, hf, ha⟩ := h
  have hi : pair.fst.collectionId.isSome := by rw [hp.right.right]; rfl
  cases Store.writeCandidateWithOutbox_cases hi hw
  case inl h =>
    obtain ⟨_, hn, _, rfl⟩ := h
    obtain ⟨e', ha⟩ := (ha.create hn hp.left hp.right.left hp.right.right).attach
    exact ⟨_, _, by simpa using hc, by simpa using hf, ha⟩
  case inr h =>
    obtain ⟨_, row, _, rfl⟩ := h
    obtain ⟨e', ha⟩ : ∃ e', Added _ _ _ (e' :: found) s (t.attach row.id pair.snd) := ha.attach
    exact ⟨_, _, Nat.le_succ_of_le hc, by simpa using hf, ha⟩

section Loops

variable {P : Store → Prop}

-- The steps of a run which nothing else interferes with lead from states with `P` to such states.
abbrev Holding (P : Store → Prop) {α : Type} (x : Run α) (Q : α → Store → Prop) (s : Store) : Prop :=
  x.Respects (· = ·) (fun s s' => P s → P s') Q s

variable (hP : ∀ n ≤ cap, ∀ t, Adds collectionId depth n s t → P t)
include hP

theorem writePair_holding (hp : Sought collectionId depth pair)
    (ha : Adds collectionId depth counts.written s t) (hc : counts.written < cap) :
    Holding P (writePair counts pair) (fun counts' t' => counts'.written = counts.written + 1 ∧
      Adds collectionId depth counts'.written s t') t := by
  refine (Resumption.respects_transact (Q := fun _ t' =>
    Adds collectionId depth (counts.written + 1) s t') (fun _ => id) ?_).bind (fun _ => rfl)
      fun outcome t' ha' => Resumption.respects_pure ?_
  case refine_1 =>
    rintro _ outcome t' rfl hw
    have ha' := ha.write hp hw
    exact ⟨fun _ => hP _ hc t' ha', fun _ he => he ▸ ha'⟩
  case refine_2 => exact fun _ he => ⟨rfl, he ▸ ha'⟩

theorem writePairs_holding (hp : ∀ pair ∈ pairs, Sought collectionId depth pair)
    (ha : Adds collectionId depth counts.written s t) (hc : counts.written ≤ cap) :
    Holding P (writePairs cap counts pairs) (fun counts' t' => counts'.written ≤ cap ∧
      Adds collectionId depth counts'.written s t') t := by
  induction pairs generalizing t counts
  case nil => exact Resumption.respects_pure fun _ he => ⟨hc, he ▸ ha⟩
  case cons pair pairs hi =>
    obtain ⟨hpair, hp⟩ := List.forall_mem_cons.mp hp
    rw [writePairs]
    split
    case isTrue  => exact Resumption.respects_pure fun _ he => ⟨hc, he ▸ ha⟩
    case isFalse hn =>
      have hn := not_le.mp hn
      refine (writePair_holding hP hpair ha hn).bind (fun _ => rfl) fun counts' t' h => ?_
      exact hi hp h.right (h.left ▸ hn)

theorem writeSources_holding {sourceIds : List SourceId}
    (ha : Adds collectionId depth counts.written s t) (hc : counts.written ≤ cap) :
    Holding P (writeSources u w entity collectionId depth cap n counts sourceIds)
      (fun counts' t' => counts'.written ≤ cap ∧
        Adds collectionId depth counts'.written s t') t := by
  induction sourceIds generalizing t n counts
  case nil => exact Resumption.respects_pure fun _ he => ⟨hc, he ▸ ha⟩
  case cons sourceId sourceIds hi =>
    rw [writeSources]
    split
    case isTrue  => exact Resumption.respects_pure fun _ he => ⟨hc, he ▸ ha⟩
    case isFalse hn =>
      have hn := not_le.mp hn
      refine Resumption.respects_ofExcept_bind fun source _ => ?_
      cases source
      case none        => exact hi ha hc
      case some source =>
        refine (writePair_holding hP ⟨rfl, rfl, rfl⟩ ha hn).bind (fun _ => rfl) fun counts' t' h => ?_
        exact hi h.right (h.left ▸ hn)

end Loops

theorem sought_graphExpansion {collectionId : CollectionId} {depth maxDepth : Int32}
    {entityTypes : Option (List String)}
    (h : graphExpansion u w entity (some collectionId) depth maxDepth entityTypes = .ok pairs) :
    ∀ pair ∈ pairs, Sought collectionId (depth + 1) pair := by
  intro pair hm
  obtain ⟨n, node, rfl⟩ := mem_graphExpansion h pair hm
  exact ⟨rfl, rfl, rfl⟩

theorem expandWithin_holding {P : Store → Prop}
    (hP : ∀ n ≤ budget.cap, ∀ t, Adds params.collectionId (params.depth + 1) n s t → P t) :
    Holding P (expandWithin u w budget params entity) (fun _ _ => True) s := by
  refine Resumption.respects_ofExcept_bind fun pairs hp => ?_
  refine (writePairs_holding hP (sought_graphExpansion hp) .refl (Nat.zero_le _)).bind (fun _ => rfl)
    fun counts t h => ?_
  split
  case isTrue  => exact Resumption.respects_pure fun _ _ => trivial
  case isFalse =>
    refine Resumption.respects_ofExcept_bind fun sourceIds _ => ?_
    refine (writeSources_holding hP h.right h.left).bind (fun _ => rfl) fun _ _ _ => ?_
    exact Resumption.respects_pure fun _ _ => trivial

def Store.setRequests (s : Store) (collectionId : CollectionId) (day : Day) (used : Int) : Store :=
  { s with requests := s.requests.set collectionId day used }

-- A run either leaves the store alone, or it is within its budget in every respect: the depth, the
-- number of candidates, and the requests of the day, without one of which nothing is added.
def Bounded (w : Surroundings) (parameters : Option Json) (s s' : Store) : Prop :=
  s' = s ∨ ∃ params stored, Parameters.decode parameters = .ok params ∧
    w.getBudget params.collectionId = .ok stored ∧
    let budget := budgetOf params.collectionId stored
    let used   := (s.requests params.collectionId w.today).getD 0
    ¬budget.maxDepth < params.depth + 1 ∧
      (s' = s.setRequests params.collectionId w.today used ∨
        used + 1 ≤ budget.dailyRequestBudget ∧
          Adds params.collectionId (params.depth + 1) budget.cap
            (s.setRequests params.collectionId w.today (used + 1)) s')

theorem set_set {usage : DailyUsage} {collectionId : CollectionId} {day : Day} {a b : Int} :
    (usage.set collectionId day a).set collectionId day b = usage.set collectionId day b := by
  simp [DailyUsage.set]

theorem consumeRequest_spends {collectionId : CollectionId} {limit : Int}
    {consumption : DailyConsume}
    (h : consumeRequest w collectionId limit s = .ok (consumption, s')) :
    let used := (s.requests collectionId w.today).getD 0
    consumption.allowed = false ∧
        s' = s.setRequests collectionId w.today used ∨
      consumption.allowed = true ∧ used + 1 ≤ limit ∧
        s' = s.setRequests collectionId w.today (used + 1) := by
  simp only [consumeRequest, tryConsumeDailyUsage, reduceCtorEq, if_false] at h
  split at h
  case h_2 _ heq =>
    split_ifs at heq
    case pos => cases heq
    case neg => cases heq
  case h_1 _ heq =>
    cases h
    split_ifs at heq
    case pos hle =>
      cases heq
      exact .inr ⟨rfl, hle, by rw [set_set, Store.setRequests]⟩
    case neg =>
      cases heq
      exact .inl ⟨rfl, rfl⟩

theorem expand_holding {parameters : Option Json} (hd : Parameters.decode parameters = .ok params) :
    Holding (Bounded w parameters s) (expand u w params) (fun _ _ => True) s := by
  refine Resumption.respects_ofExcept_bind fun entity he => ?_
  cases entity
  case none => exact Resumption.respects_fail
  case some entity =>
    refine Resumption.respects_ofExcept_bind fun stored hb => ?_
    dsimp only
    split
    case isTrue => exact Resumption.respects_fail
    case isFalse hdepth =>
      refine (Resumption.respects_transact (Q := fun consumption t => consumption.allowed →
        ∀ n ≤ (budgetOf params.collectionId stored).cap, ∀ t',
          Adds params.collectionId (params.depth + 1) n t t' → Bounded w parameters s t')
        (fun _ => id) ?_).bind (fun _ => rfl) fun consumption t h => ?_
      case refine_1 =>
        rintro _ consumption t rfl hc
        cases consumeRequest_spends hc
        case inl h =>
          refine ⟨fun _ => .inr ⟨params, stored, hd, hb, hdepth, .inl h.right⟩, fun _ _ hn => ?_⟩
          exact absurd (h.left ▸ hn) Bool.false_ne_true
        case inr h =>
          have ht (n : Nat) (hn : n ≤ (budgetOf params.collectionId stored).cap) (t' : Store)
              (ha : Adds params.collectionId (params.depth + 1) n t t') : Bounded w parameters s t' :=
            .inr ⟨params, stored, hd, hb, hdepth, .inr ⟨h.right.left, h.right.right ▸ ha.mono hn⟩⟩
          exact ⟨fun _ => ht 0 (Nat.zero_le _) t .refl, fun _ he _ => he ▸ ht⟩
      case refine_2 =>
        split
        case isTrue ha => exact expandWithin_holding (h ha)
        case isFalse   => exact Resumption.respects_fail

theorem runGraphExpansion_holding {parameters : Option Json} :
    Holding (Bounded w parameters s) (runGraphExpansion u w parameters) (fun _ _ => True) s := by
  refine Resumption.respects_ofExcept_bind fun params hd => ?_
  refine (expand_holding hd).bind (fun _ => rfl) fun _ _ _ => ?_
  exact Resumption.respects_pure fun _ _ => trivial

end Discovery
