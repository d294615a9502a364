import OsintCore.Discovery.Expansion

namespace Discovery

open Resources

-- What an approval asks of a candidate
def Approvable (lib : UrlLib) (c : Candidate) : Prop :=
  c.candidateType = .url →
    (∃ url, UrlNorm.canonicalize lib c.value = .ok (some url)) ∧ UrlNorm.isHttpOrHttps lib c.value

-- What no review changes about a candidate
def core (c : Candidate) : Candidate :=
  { c with status := .pending, reviewedAt := none }

-- The event which tells of a version of a candidate
def announce (v : Candidate) : CandidateEvent :=
  match v.status with
  | .approved => candidateEvent "candidate.approved" v
  | .rejected => candidateEvent "candidate.rejected" v
  | _         => Store.createdEvent v v.id

-- The row of a candidate over time: it comes as a pending one, and each review changes its status.
structure Versions (c : Candidate) (versions : List Candidate) : Prop where
  first   : versions.head?.map (·.status) = some .pending
  later   : ∀ v ∈ versions.tail, v.status = .approved ∨ v.status = .rejected
  changes : versions.IsChain fun v v' => v.status ≠ v'.status ∧ core v = core v'
  last    : versions.getLast? = some c

theorem Versions.snoc {row c : Candidate} {versions : List Candidate} (h : Versions row versions)
    (hs : c.status = .approved ∨ c.status = .rejected) (hn : row.status ≠ c.status)
    (hc : core row = core c) : Versions c (versions ++ [c]) := by
  cases hv : versions
  case nil =>
    have hl := h.last
    rw [hv] at hl
    cases hl
  case cons v l =>
    have ⟨hf, hlater, hch, hl⟩ := hv ▸ h
    refine ⟨hf, ?_, List.isChain_append.mpr ⟨hch, .singleton _, ?_⟩, List.getLast?_concat ..⟩
    case refine_1 => exact List.forall_mem_append.mpr ⟨hlater, by simpa using hs⟩
    case refine_2 =>
      intro x hx y hy
      rw [hl] at hx
      cases hx
      cases hy
      exact ⟨hn, hc⟩

namespace Store

def events (s : Store) (id : CandidateId) : List CandidateEvent :=
  s.outbox.filter (·.correlationId = some id)

-- The evidence is put unless there is the same already.
def attach (s : Store) (candidateId : CandidateId) (e : CandidateEvidence) : Store :=
  if s.hasEvidence candidateId e then s
  else s.putCandidateEvidence { e with candidateId := candidateId }

-- The natural keys and the evidence of each candidate are distinct, the outbox tells of each
-- version of each candidate once and in order, and only what may be approved is.
structure Consistent (lib : UrlLib) (s : Store) : Prop where
  unique   : s.candidates.Unique naturalKey
  distinct : ∀ e ∈ s.evidence, ∀ e' ∈ s.evidence,
             e.candidateId = e'.candidateId → finding e = finding e' → e = e'
  refers   : s.evidence.References (some ·.candidateId) s.candidates
  absent   : ∀ id, s.candidates.get? id = none → s.events id = []
  told     : ∀ c ∈ s.candidates, ∃ versions, Versions c versions ∧
             s.events c.id = versions.map announce
  safe     : ∀ c ∈ s.candidates, c.status = .approved → Approvable lib c

-- Whatever happens to a candidate, its core stays.
def Keeps (s s' : Store) : Prop :=
  ∀ id c, s.candidates.get? id = some c → ∃ c', s'.candidates.get? id = some c' ∧ core c' = core c

-- What a single access may do
inductive Step (lib : UrlLib) (s : Store) : Store → Prop
  | idle : Step lib s s
  | consume (requests : DailyUsage) : Step lib s { s with requests := requests }
  | discover {c : Candidate} {e : CandidateEvidence} {outcome : CandidateDiscoveryOutcome}
    {s' : Store} (pending : c.status = .pending) (collection : c.collectionId.isSome)
    (write : s.writeCandidateWithOutbox c e = .ok (outcome, s')) : Step lib s s'
  | review {id : CandidateId} {status : CandidateStatus} {topic : String} {now : Timestamp}
    {c : Candidate} {s' : Store} (told : candidateTopic status = pure topic)
    (safe : status = .approved → ∀ c, s.candidates.get? id = some c → Approvable lib c)
    (write : s.review id status topic now = .ok (c, s')) : Step lib s s'

variable {lib : UrlLib} {s s' s'' : Store} {c row : Candidate} {e : CandidateEvidence}
variable {id : CandidateId} {status : CandidateStatus} {topic : String} {now : Timestamp}
variable {outcome : CandidateDiscoveryOutcome} {created : Bool}

@[simp]
theorem candidates_attach : (s.attach id e).candidates = s.candidates := by
  unfold attach
  split <;> rfl

@[simp]
theorem outbox_attach : (s.attach id e).outbox = s.outbox := by
  unfold attach
  split <;> rfl

theorem attach_enqueueOutbox {event : CandidateEvent} :
    (s.attach id e).enqueueOutbox event = (s.enqueueOutbox event).attach id e := by
  have h : (s.enqueueOutbox event).hasEvidence id e = s.hasEvidence id e := rfl
  rw [attach, attach, h]
  split <;> rfl

theorem insertCandidate_cases (hc : c.collectionId.isSome)
    (h : s.insertCandidate c = .ok (id, created, s')) :
    (created = true ∧ id = c.id ∧ s' = s.putCandidate c ∧ s.candidates.get? c.id = none ∧
      s.sibling c = none) ∨
    (created = false ∧ s' = s ∧ ∃ row, s.sibling c = some row ∧ id = row.id) := by
  have hn : ¬c.collectionId.isNone := by simpa [Option.isSome_iff_ne_none] using hc
  rw [insertCandidate, if_neg hn] at h
  split at h
  case isTrue hf =>
    cases h
    exact .inl ⟨rfl, rfl, rfl, by simpa using hf.left, by simpa using hf.right⟩
  case isFalse =>
    split at h
    case h_1 row hr =>
      cases h
      exact .inr ⟨rfl, rfl, row, hr, rfl⟩
    case h_2 => cases h

theorem writeCandidateWithOutbox_cases (hc : c.collectionId.isSome)
    (h : s.writeCandidateWithOutbox c e = .ok (outcome, s')) :
    (outcome.created = true ∧ s.candidates.get? c.id = none ∧ s.sibling c = none ∧
      s' = ((s.putCandidate c).enqueueOutbox (createdEvent c c.id)).attach c.id e) ∨
    (outcome.created = false ∧ ∃ row, s.sibling c = some row ∧ s' = s.attach row.id e) := by
  simp only [writeCandidateWithOutbox, recordCandidateDiscovery, Except.bind_eq_ok, Prod.exists,
    Except.pure_eq_ok, Prod.mk.injEq] at h
  obtain ⟨_, _, ⟨id, created, t, hi, rfl, rfl⟩, rfl, rfl⟩ := h
  cases insertCandidate_cases hc hi
  case inl h =>
    obtain ⟨rfl, rfl, rfl, hg, hs⟩ := h
    exact .inl ⟨rfl, hg, hs, attach_enqueueOutbox⟩
  case inr h =>
    obtain ⟨rfl, rfl, row, hs, rfl⟩ := h
    exact .inr ⟨rfl, row, hs, rfl⟩

theorem review_of_eq (hg : s.candidates.get? id = some row) (hs : row.status = status) :
    s.review id status topic now = .ok (row, s) := by
  rw [review, getCandidate, hg]
  exact if_pos hs

section

variable (hg : s.candidates.get? id = some row) (hs : row.status ≠ status)
variable (hc : c = { row with status := status, reviewedAt := some now })
include hg hs hc

theorem updateCandidateStatus_of_ne :
    s.updateCandidateStatus id status now = (true, s.putCandidate c) := by
  rw [updateCandidateStatus, hg, hc]
  exact if_neg hs

omit hs in
theorem get?_putCandidate : (s.putCandidate c).candidates.get? id = some c := by
  have hid : row.id = id := Table.get?_key hg
  refine (Table.get?_put ..).trans <| if_pos ?_
  rw [hc, ← hid]
  rfl

theorem review_of_ne : s.review id status topic now =
    .ok (c, (s.putCandidate c).enqueueOutbox (candidateEvent topic c)) := by
  rw [review, getCandidate, hg]
  refine (if_neg hs).trans ?_
  rw [updateCandidateStatus_of_ne hg hs hc]
  dsimp only
  rw [get?_putCandidate hg hc]
  rfl

end

theorem review_cases (h : s.review id status topic now = .ok (c, s')) :
    s' = s ∨ ∃ row, s.candidates.get? id = some row ∧ row.status ≠ status ∧
      c = { row with status := status, reviewedAt := some now } ∧
      s' = (s.putCandidate c).enqueueOutbox (candidateEvent topic c) := by
  cases hg : s.candidates.get? id
  case none =>
    rw [review, getCandidate, hg] at h
    cases h
  case some row =>
    by_cases hs : row.status = status
    case pos =>
      rw [review_of_eq hg hs] at h
      cases h
      exact .inl rfl
    case neg =>
      rw [review_of_ne hg hs rfl] at h
      cases h
      exact .inr ⟨row, rfl, hs, rfl, rfl⟩

theorem events_enqueueOutbox {event : CandidateEvent} :
    (s.enqueueOutbox event).events id =
      s.events id ++ if event.correlationId = some id then [event] else [] := by
  simp only [events, enqueueOutbox, List.filter_append, List.filter_cons, List.filter_nil,
    decide_eq_true_eq]

theorem Consistent.attach (h : s.Consistent lib) (hid : (s.candidates.get? id).isSome) :
    (s.attach id e).Consistent lib := by
  unfold Store.attach
  split
  case isTrue => exact h
  case isFalse hn =>
    have hn (row : CandidateEvidence) (hr : row ∈ s.evidence) (hi : row.candidateId = id) :
        finding row ≠ finding e := by
      intro hf
      exact hn <| List.any_eq_true.mpr ⟨row, hr, decide_eq_true ⟨hi, hf⟩⟩
    refine ⟨h.unique, ?_, h.refers.put fun i hi => ?_, h.absent, h.told, h.safe⟩
    case refine_1 =>
      intro a ha b hb hc hf
      cases Table.mem_put.mp ha <;> cases Table.mem_put.mp hb
      case inl.inl ha hb => rw [ha, hb]
      case inl.inr ha hb =>
        subst ha
        exact absurd hf.symm <| hn b hb.left hc.symm
      case inr.inl ha hb =>
        subst hb
        exact absurd hf <| hn a ha.left hc
      case inr.inr ha hb => exact h.distinct a ha.left b hb.left hc hf
    case refine_2 => exact Option.some.inj hi ▸ hid

theorem Consistent.create (h : s.Consistent lib) (hn : s.candidates.get? c.id = none)
    (hs : s.sibling c = none) (hp : c.status = .pending) :
    ((s.putCandidate c).enqueueOutbox (createdEvent c c.id)).Consistent lib := by
  have hput (id : CandidateId) : (s.candidates.put c).get? id =
      if c.id = id then some c else s.candidates.get? id := Table.get?_put ..
  have hev (id : CandidateId) : ((s.putCandidate c).enqueueOutbox (createdEvent c c.id)).events id =
      s.events id ++ if c.id = id then [createdEvent c c.id] else [] := by
    rw [events_enqueueOutbox]
    simp only [createdEvent, Option.some.injEq]
    rfl
  have ha : s.candidates.Admits naturalKey c := by
    intro b hb _ _ he
    exact of_decide_eq_false (by simpa using List.find?_eq_none.mp hs b hb) he
  refine ⟨h.unique.put ha, h.distinct, h.refers.put_right, fun id hi => ?absent, fun c' hc => ?told,
    fun c' hc ha => ?safe⟩
  case absent =>
    change (s.candidates.put c).get? id = none at hi
    rw [hput] at hi
    split_ifs at hi with hid
    rw [hev, if_neg hid, h.absent id hi, List.append_nil]
  case told =>
    cases Table.mem_put.mp hc
    case inl he =>
      subst he
      refine ⟨[c'], ⟨congrArg some hp, nofun, .singleton _, rfl⟩, ?_⟩
      rw [hev, if_pos rfl, h.absent _ hn, List.map_singleton, announce, hp]
      rfl
    case inr hc =>
      have ⟨versions, hv, he⟩ := h.told c' hc.left
      refine ⟨versions, hv, ?_⟩
      have hne : c.id ≠ c'.id := Ne.symm hc.right
      rw [hev, if_neg hne, List.append_nil, he]
  case safe =>
    cases Table.mem_put.mp hc
    case inl he =>
      rw [he, hp] at ha
      cases ha
    case inr hc => exact h.safe c' hc.left ha

theorem candidateTopic_eq (h : candidateTopic status = pure topic) :
    status = .approved ∧ topic = "candidate.approved" ∨
      status = .rejected ∧ topic = "candidate.rejected" := by
  cases status
  case approved => cases h; exact .inl ⟨rfl, rfl⟩
  case rejected => cases h; exact .inr ⟨rfl, rfl⟩
  all_goals cases h

theorem Consistent.change (h : s.Consistent lib) (hr : s.candidates.get? id = some row)
    (hn : row.status ≠ status) (ht : candidateTopic status = pure topic)
    (hsafe : status = .approved → Approvable lib row)
    (hc : c = { row with status := status, reviewedAt := some now }) :
    ((s.putCandidate c).enqueueOutbox (candidateEvent topic c)).Consistent lib := by
  have hid : c.id = id := hc ▸ Table.get?_key hr
  have hput (id : CandidateId) : (s.candidates.put c).get? id =
      if c.id = id then some c else s.candidates.get? id := Table.get?_put ..
  have hev (id : CandidateId) :
      ((s.putCandidate c).enqueueOutbox (candidateEvent topic c)).events id =
        s.events id ++ if c.id = id then [candidateEvent topic c] else [] := by
    rw [events_enqueueOutbox]
    simp only [candidateEvent, Option.some.injEq]
    rfl
  have hk : naturalKey row = naturalKey c := hc ▸ rfl
  have hrc : row.id = c.id := hc ▸ rfl
  refine ⟨h.unique.put (h.unique.admits (Table.get?_mem hr) hrc hk), h.distinct, h.refers.put_right,
    fun id' hi => ?absent, fun c' hc' => ?told, fun c' hc' ha => ?safe⟩
  case absent =>
    change (s.candidates.put c).get? id' = none at hi
    rw [hput] at hi
    split_ifs at hi with hid
    rw [hev, if_neg hid, h.absent id' hi, List.append_nil]
  case told =>
    cases Table.mem_put.mp hc'
    case inl he =>
      subst he
      have ⟨versions, hv, he⟩ := h.told row (Table.get?_mem hr)
      have hs : c'.status = status := hc ▸ rfl
      refine ⟨versions ++ [c'], hv.snoc ?_ ?_ ?_, ?_⟩
      case refine_1 => exact hs ▸ (candidateTopic_eq ht).imp (·.left) (·.left)
      case refine_2 => rwa [hs]
      case refine_3 => rw [hc]; rfl
      case refine_4 =>
        rw [hev, if_pos rfl, ← hrc, he, List.map_append, List.map_singleton, announce, hs]
        cases candidateTopic_eq ht
        case inl h => rw [h.left, h.right]
        case inr h => rw [h.left, h.right]
    case inr hc' =>
      have ⟨versions, hv, he⟩ := h.told c' hc'.left
      refine ⟨versions, hv, ?_⟩
      have hne : c.id ≠ c'.id := Ne.symm hc'.right
      rw [hev, if_neg hne, List.append_nil, he]
  case safe =>
    cases Table.mem_put.mp hc'
    case inl he =>
      subst he
      have hs : c'.status = status := hc ▸ rfl
      have hsafe := hsafe (hs ▸ ha)
      rw [hc]
      exact hsafe
    case inr hc' => exact h.safe c' hc'.left ha

theorem Consistent.step (h : s.Consistent lib) (hs : Step lib s s') : s'.Consistent lib := by
  cases hs
  case idle    => exact h
  case consume => exact ⟨h.unique, h.distinct, h.refers, h.absent, h.told, h.safe⟩
  case discover pending collection write =>
    cases writeCandidateWithOutbox_cases collection write
    case inl hw =>
      have ⟨_, hn, hs, he⟩ := hw
      rw [he]
      refine (h.create hn hs pending).attach ?_
      exact Option.isSome_iff_exists.mpr ⟨_, (Table.get?_put ..).trans <| if_pos rfl⟩
    case inr hw =>
      have ⟨_, row, hs, he⟩ := hw
      rw [he]
      have hm : row ∈ s.candidates := List.mem_of_find?_eq_some hs
      exact h.attach <| Option.isSome_iff_exists.mpr ⟨row, Table.mem_iff_get?.mp hm⟩
  case review told safe write =>
    cases review_cases write
    case inl he => rwa [he]
    case inr hw =>
      have ⟨row, hr, hn, hc, he⟩ := hw
      rw [he]
      exact h.change hr hn told (fun ha => safe ha row hr) hc

theorem Keeps.refl : s.Keeps s :=
  fun _ c h => ⟨c, h, rfl⟩

theorem Keeps.trans (h : s.Keeps s') (h' : s'.Keeps s'') : s.Keeps s'' := by
  intro id c hc
  have ⟨c', hc', he⟩ := h id c hc
  have ⟨c'', hc'', he'⟩ := h' id c' hc'
  exact ⟨c'', hc'', he'.trans he⟩

theorem Step.keeps (h : Step lib s s') : s.Keeps s' := by
  cases h
  case idle    => exact .refl
  case consume => exact .refl
  case discover pending collection write =>
    intro id row hr
    cases writeCandidateWithOutbox_cases collection write
    case inl hw =>
      have ⟨_, hn, _, he⟩ := hw
      refine ⟨row, ?_, rfl⟩
      rw [he, candidates_attach]
      refine (Table.get?_put ..).trans <| (if_neg fun hi => ?_).trans hr
      rw [← hi, Candidate.key_eq, hn] at hr
      cases hr
    case inr hw =>
      have ⟨_, _, _, he⟩ := hw
      exact ⟨row, by rw [he, candidates_attach, hr], rfl⟩
  case review id _ _ _ c told safe write =>
    intro id' row hr
    cases review_cases write
    case inl he => exact ⟨row, by rw [he, hr], rfl⟩
    case inr hw =>
      have ⟨row', hr', _, hc, he⟩ := hw
      have hput : s'.candidates.get? id' =
          if c.id = id' then some c else s.candidates.get? id' := by
        rw [he]
        exact Table.get?_put ..
      by_cases hi : c.id = id'
      case neg => exact ⟨row, by rw [hput, if_neg hi, hr], rfl⟩
      case pos =>
        have hid : row'.id = id := Table.get?_key hr'
        have hid' : id = id' := by rw [← hi, hc, ← hid]
        rw [← hid', hr'] at hr
        cases hr
        exact ⟨c, by rw [hput, if_pos hi], hc ▸ rfl⟩

end Store

end Discovery
