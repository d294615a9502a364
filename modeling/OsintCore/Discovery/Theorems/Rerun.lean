import OsintCore.Discovery.Theorems.Interleaving

namespace Discovery

open Resources

-- The pair has been written, or one like it.
def Store.Holds (s : Store) (pair : Pair) : Prop :=
  ∃ row, s.sibling pair.fst = some row ∧ s.hasEvidence row.id pair.snd

-- Pairs which differ in their ids and times at most
structure Alike (p q : Pair) : Prop where
  naturalKey : naturalKey p.fst = naturalKey q.fst
  finding    : finding p.snd = finding q.snd
  fit        : Fit p

-- Nothing gets lost but for what the reviews change.
structure Store.Grows (s s' : Store) : Prop where
  keeps    : s.Keeps s'
  evidence : ∀ e ∈ s.evidence, e ∈ s'.evidence

namespace Store

variable {lib : UrlLib} {s s' s'' : Store} {c : Candidate} {e : CandidateEvidence} {p q : Pair}
variable {outcome : CandidateDiscoveryOutcome}

theorem Grows.refl : s.Grows s where
  keeps    := .refl
  evidence := fun _ h => h

theorem Grows.trans (h : s.Grows s') (h' : s'.Grows s'') : s.Grows s'' where
  keeps    := h.keeps.trans h'.keeps
  evidence := fun e he => h'.evidence e (h.evidence e he)

theorem holds_congr (h : Alike p q) : s.Holds p ↔ s.Holds q := by
  have hs : s.sibling p.fst = s.sibling q.fst := by rw [sibling, sibling, h.naturalKey]
  simp only [Holds, hs, hasEvidence, h.finding]

theorem sibling_eq_some (hu : s.candidates.Unique naturalKey) (hc : c.collectionId.isSome)
    {row : Candidate} :
    s.sibling c = some row ↔ row ∈ s.candidates ∧ naturalKey row = naturalKey c := by
  have ⟨collectionId, hci⟩ := Option.isSome_iff_exists.mp hc
  rw [sibling, Table.find?_eq_some fun a ha b hb hpa hpb => ?_]
  case _ => simp
  have hk : naturalKey c = some (collectionId, c.candidateType, c.normalizedValue) := by
    rw [naturalKey, hci]
    rfl
  simp only [decide_eq_true_eq] at hpa hpb
  exact hu.eq ha hb (hpa.trans hk) (hpb.trans hk)

theorem hasEvidence_iff {id : CandidateId} : s.hasEvidence id e ↔
    ∃ x ∈ s.evidence, x.candidateId = id ∧ finding x = finding e := by
  simp [hasEvidence, Table.mem_def]

theorem Holds.grows (h : s.Holds p) (hu : s.candidates.Unique naturalKey)
    (hu' : s'.candidates.Unique naturalKey) (hp : p.fst.collectionId.isSome) (hg : s.Grows s') :
    s'.Holds p := by
  have ⟨row, hr, he⟩ := h
  have ⟨hm, hk⟩ := (sibling_eq_some hu hp).mp hr
  have ⟨row', hr', hcore⟩ := hg.keeps row.id row (Table.mem_iff_get?.mp hm)
  have hk' := congrArg naturalKey hcore
  have hid := congrArg Candidate.id hcore
  change naturalKey row' = naturalKey row at hk'
  change row'.id = row.id at hid
  have ⟨x, hx, hxc, hxf⟩ := hasEvidence_iff.mp he
  refine ⟨row', (sibling_eq_some hu' hp).mpr ⟨Table.get?_mem hr', hk'.trans hk⟩, ?_⟩
  exact hasEvidence_iff.mpr ⟨x, hg.evidence x hx, hxc.trans hid.symm, hxf⟩

-- What is there already is not written again.
theorem write_of_holds (hp : p.fst.collectionId.isSome) (h : s.Holds p) :
    ∃ id, s.writeCandidateWithOutbox p.fst p.snd = .ok (⟨id, false, false⟩, s) := by
  have ⟨row, hr, he⟩ := h
  refine ⟨row.id, ?_⟩
  have hn : ¬p.fst.collectionId.isNone := by simpa [Option.isSome_iff_ne_none] using hp
  have hi : s.insertCandidate p.fst = .ok (row.id, false, s) := by
    rw [insertCandidate, if_neg hn, if_neg (by simp [hr]), hr]
  rw [writeCandidateWithOutbox, recordCandidateDiscovery, hi]
  simp [he, bind, Except.bind, pure, Except.pure]

theorem hasEvidence_attach {id : CandidateId} : (s.attach id e).hasEvidence id e := by
  unfold attach
  split
  case isTrue h => exact h
  case isFalse  => exact hasEvidence_iff.mpr ⟨_, Table.mem_put_self .., rfl, rfl⟩

theorem mem_evidence_attach {id : CandidateId} (hf : s.evidence.get? e.id = none)
    {x : CandidateEvidence} (hx : x ∈ s.evidence) : x ∈ (s.attach id e).evidence := by
  unfold attach
  split
  case isTrue  => exact hx
  case isFalse =>
    refine Table.mem_put.mpr <| .inr ⟨hx, fun he => ?_⟩
    exact Table.get?_eq_none.mp hf x hx he

theorem get?_attach {id : CandidateId} {i : CandidateEvidenceId} (hi : i ≠ e.id) :
    (s.attach id e).evidence.get? i = s.evidence.get? i := by
  unfold attach
  split
  case isTrue  => rfl
  case isFalse => exact (Table.get?_put ..).trans <| if_neg hi.symm

theorem Consistent.write (h : s.Consistent lib) (hp : p.fst.status = .pending)
    (hc : p.fst.collectionId.isSome) (hf : s.evidence.get? p.snd.id = none)
    (hw : s.writeCandidateWithOutbox p.fst p.snd = .ok (outcome, s')) :
    s'.Consistent lib ∧ s.Grows s' ∧ s'.Holds p ∧
      ∀ i, i ≠ p.snd.id → s'.evidence.get? i = s.evidence.get? i := by
  have hs : s.Step lib s' := .discover hp hc hw
  have hc' := h.step hs
  refine ⟨hc', ?_⟩
  cases writeCandidateWithOutbox_cases hc hw
  case inl hw =>
    have ⟨_, _, _, he⟩ := hw
    subst he
    let t := (s.putCandidate p.fst).enqueueOutbox (createdEvent p.fst p.fst.id)
    have ht (x : CandidateEvidence) (hx : x ∈ s.evidence) :
        x ∈ (t.attach p.fst.id p.snd).evidence :=
      mem_evidence_attach (s := t) hf hx
    refine ⟨⟨hs.keeps, ht⟩, ⟨p.fst, ?_, hasEvidence_attach⟩, fun i hi => get?_attach (s := t) hi⟩
    refine (sibling_eq_some hc'.unique hc).mpr ⟨?_, rfl⟩
    rw [candidates_attach]
    exact Table.mem_put_self ..
  case inr hw =>
    have ⟨_, row, hr, he⟩ := hw
    subst he
    refine ⟨⟨hs.keeps, fun x hx => mem_evidence_attach hf hx⟩, ⟨row, ?_, hasEvidence_attach⟩,
      fun i hi => get?_attach hi⟩
    rw [sibling, candidates_attach]
    exact hr

end Store

-- Whatever the surroundings answer at another time, they have answered before.
structure Surroundings.Like (w w' : Surroundings) : Prop where
  getEntity : ∀ id r, w'.getEntity id = .ok r → w.getEntity id = .ok r
  getBudget : ∀ id r, w'.getBudget id = .ok r → w.getBudget id = .ok r
  neighbors : ∀ id options r, w'.neighbors id options = .ok r → w.neighbors id options = .ok r
  sourcesOf : ∀ id limit r, w'.sourcesOf id limit = .ok r → w.sourcesOf id limit = .ok r
  getSource : ∀ id r, w'.getSource id = .ok r → w.getSource id = .ok r

-- The ids of the evidence from the `n`-th pair on have not been used yet.
def Fresh (w : Surroundings) (n : Nat) (s : Store) : Prop :=
  ∀ m, n ≤ m → s.evidence.get? (w.newId (2 * m + 1)) = none

def Numbered (w : Surroundings) (n : Nat) (pairs : List Pair) : Prop :=
  ∀ i (h : i < pairs.length), pairs[i].snd.id = w.newId (2 * (n + i) + 1)

variable {lib : UrlLib} {u : Unicode} {w w' : Surroundings} {s s' t t' : Store} {p q : Pair}
variable {pairs pairs' : List Pair} {cap n n' k : Nat} {counts : Counts}

theorem Fresh.succ (hi : w.newId.Injective) (h : Fresh w n s)
    (hs : ∀ i, i ≠ w.newId (2 * n + 1) → s'.evidence.get? i = s.evidence.get? i) :
    Fresh w (n + 1) s' := by
  intro m hm
  rw [hs _ fun he => absurd (hi he) (by omega)]
  exact h m (by omega)

theorem writePair_ensures (hi : w.newId.Injective) (hc : s.Consistent lib) (hf : Fresh w n s)
    (hp : Fit p) (hn : p.snd.id = w.newId (2 * n + 1)) :
    (writePair counts p).Ensures s (fun counts' s' => counts'.written = counts.written + 1 ∧
      s'.Consistent lib ∧ s.Grows s' ∧ s'.Holds p ∧ Fresh w (n + 1) s') fun _ _ => True := by
  rw [writePair, Resumption.ensures_bind, Resumption.ensures_transact]
  refine ⟨fun outcome s' hw => ?_, fun _ _ => trivial⟩
  have ⟨hc', hg, hh, he⟩ := hc.write hp.left hp.right (hn ▸ hf n le_rfl) hw
  exact ⟨rfl, hc', hg, hh, hf.succ hi (hn ▸ he)⟩

-- A run which does not write anything but the request which it has used
def Idle (t t' : Store) : Prop :=
  ∃ requests, t' = { t with requests := requests }

theorem Idle.refl : Idle t t :=
  ⟨t.requests, rfl⟩

theorem Idle.trans {t'' : Store} (h : Idle t t') (h' : Idle t' t'') : Idle t t'' := by
  obtain ⟨_, rfl⟩ := h
  obtain ⟨requests, rfl⟩ := h'
  exact ⟨requests, rfl⟩

-- If it is answered, the program has left the store as it was, and gives the answer `a`.
abbrev Repeats {α : Type} (x : Run α) (a : α) (t : Store) : Prop :=
  x.Respects (· = ·) Idle (fun b t' => b = a ∧ t' = t) t

section Repeats

variable {α β : Type} {x : Run α} {f : α → Run β} {a : α} {b : β} {Q : β → Store → Prop}

theorem repeats_pure : Repeats (pure a) a t :=
  Resumption.respects_pure fun _ he => ⟨rfl, he.symm⟩

theorem Repeats.bind (hx : Repeats x a t) (hf : (f a).Respects (· = ·) Idle Q t) :
    (x >>= f).Respects (· = ·) Idle Q t := by
  refine Resumption.Respects.bind (fun _ => rfl) hx fun a' t' h => ?_
  rw [h.left, h.right]
  exact hf

-- A read which is answered is answered as before.
theorem respects_again {r r' : Except String α} (hr : r = .ok a) (h : ∀ a', r' = .ok a' → r = .ok a')
    (hf : (f a).Respects (· = ·) Idle Q t) :
    (Resumption.ofExcept r' >>= f).Respects (· = ·) Idle Q t := by
  refine Resumption.respects_ofExcept_bind fun a' hr' => ?_
  have he := (h a' hr').symm.trans hr
  cases he
  exact hf

end Repeats

theorem writePair_of_holds (hp : Fit p) (h : t.Holds p) :
    Repeats (writePair ⟨n, k⟩ p) ⟨n + 1, k⟩ t := by
  obtain ⟨id, hw⟩ := Store.write_of_holds hp.right h
  refine (Resumption.respects_transact (Q := fun outcome t' => outcome = ⟨id, false, false⟩ ∧ t' = t)
    (fun _ => .refl) ?_).bind (fun _ => rfl) fun outcome t' ho => Resumption.respects_pure ?_
  case refine_1 =>
    rintro _ outcome t' rfl ht
    cases hw.symm.trans ht
    exact ⟨.refl, fun _ he => ⟨rfl, he.symm⟩⟩
  case refine_2 =>
    rintro _ rfl
    rw [ho.left]
    exact ⟨rfl, ho.right⟩

-- What the first run of the loop has written, a later one does not write again.
theorem writePairs_ensures (hi : w.newId.Injective) (hn : Numbered w n pairs)
    (hp : ∀ pair ∈ pairs, Fit pair) (hc : s.Consistent lib) (hf : Fresh w n s) :
    (writePairs cap counts pairs).Ensures s (fun counts' s' => s'.Consistent lib ∧ s.Grows s' ∧
      Fresh w (n + pairs.length) s' ∧ ∀ t, s'.Grows t → t.Consistent lib → ∀ pairs',
        List.Forall₂ Alike pairs' pairs → ∀ k,
          Repeats (writePairs cap ⟨counts.written, k⟩ pairs') ⟨counts'.written, k⟩ t)
      fun _ _ => True := by
  induction pairs generalizing s n counts
  case nil =>
    refine ⟨hc, .refl, hf, fun t _ _ pairs' hl k => ?_⟩
    cases hl
    exact repeats_pure
  case cons pair pairs hi' =>
    obtain ⟨hpair, hp⟩ := List.forall_mem_cons.mp hp
    rw [writePairs, Resumption.ensures_ite]
    constructor
    case left =>
      intro hcap
      refine ⟨hc, .refl, fun m hm => hf m (by rw [List.length_cons] at hm; omega), ?_⟩
      intro t _ _ pairs' hl k
      cases hl
      rw [writePairs, if_pos hcap]
      exact repeats_pure
    case right =>
      intro hcap
      rw [Resumption.ensures_bind]
      refine (writePair_ensures hi hc hf hpair (hn 0 (by simp))).mono ?_ fun _ _ _ => trivial
      rintro counts₁ s₁ ⟨hw, hc₁, hg₁, hh, hf₁⟩
      have hn₁ : Numbered w (n + 1) pairs := by
        intro i h
        have := hn (i + 1) (by simpa using h)
        rw [List.getElem_cons_succ] at this
        rw [this]
        congr 2
        omega
      refine (hi' hn₁ hp hc₁ hf₁).mono ?_ fun _ _ _ => trivial
      rintro counts' s' ⟨hc', hg', hf', hr⟩
      refine ⟨hc', hg₁.trans hg', ?_, fun t ht htc pairs' hl k => ?_⟩
      case refine_1 =>
        rw [List.length_cons, Nat.add_comm pairs.length, ← Nat.add_assoc]
        exact hf'
      case refine_2 =>
        cases hl
        case cons pair' pairs' ha hl =>
          have hh := hh.grows hc₁.unique htc.unique hpair.right (hg'.trans ht)
          have hr := hr t ht htc pairs' hl k
          rw [hw] at hr
          rw [writePairs, if_neg hcap]
          exact (writePair_of_holds ha.fit ((Store.holds_congr ha).mpr hh)).bind hr

section Loops

variable {entity : Entity} {budget : CollectionBudget} {params : Parameters}

theorem writeSources_ensures {collectionId : CollectionId} {depth : Int32}
    {sourceIds : List SourceId} (hw : w.Like w') (hi : w.newId.Injective) (hc : s.Consistent lib)
    (hf : Fresh w n s) :
    (writeSources u w entity collectionId depth cap n counts sourceIds).Ensures s
      (fun counts' s' => s'.Consistent lib ∧ s.Grows s' ∧
        ∀ t, s'.Grows t → t.Consistent lib → ∀ n' k,
          Repeats (writeSources u w' entity collectionId depth cap n' ⟨counts.written, k⟩ sourceIds)
            ⟨counts'.written, k⟩ t)
      fun _ _ => True := by
  induction sourceIds generalizing s n counts
  case nil => exact ⟨hc, .refl, fun _ _ _ _ _ => repeats_pure⟩
  case cons sourceId sourceIds hi' =>
    rw [writeSources, Resumption.ensures_ite]
    constructor
    case left =>
      intro hcap
      refine ⟨hc, .refl, fun t _ _ n' k => ?_⟩
      rw [writeSources, if_pos hcap]
      exact repeats_pure
    case right =>
      intro hcap
      rw [Resumption.ensures_ofExcept_bind]
      intro source hs
      cases source
      case none =>
        refine (hi' hc hf).mono ?_ fun _ _ _ => trivial
        rintro counts' s' ⟨hc', hg', hr⟩
        refine ⟨hc', hg', fun t ht htc n' k => ?_⟩
        rw [writeSources, if_neg hcap]
        exact respects_again hs (hw.getSource sourceId) (hr t ht htc n' k)
      case some source =>
        dsimp only
        rw [Resumption.ensures_bind]
        refine (writePair_ensures hi hc hf ⟨rfl, rfl⟩ rfl).mono ?_ fun _ _ _ => trivial
        rintro counts₁ s₁ ⟨hcount, hc₁, hg₁, hh, hf₁⟩
        refine (hi' hc₁ hf₁).mono ?_ fun _ _ _ => trivial
        rintro counts' s' ⟨hc', hg', hr⟩
        refine ⟨hc', hg₁.trans hg', fun t ht htc n' k => ?_⟩
        have hh := hh.grows hc₁.unique htc.unique rfl (hg'.trans ht)
        have ha : Alike (sourcePair u w' entity
            collectionId depth n' source) (sourcePair u w entity collectionId depth n source) :=
          ⟨rfl, rfl, rfl, rfl⟩
        have hr := hr t ht htc (n' + 1) k
        rw [hcount] at hr
        rw [writeSources, if_neg hcap]
        refine respects_again hs (hw.getSource sourceId) ?_
        exact (writePair_of_holds ha.fit ((Store.holds_congr ha).mpr hh)).bind hr

theorem forall₂_mapIdx {α β γ : Type} {R : β → γ → Prop} {l : List α} {f : Nat → α → β}
    {g : Nat → α → γ} (h : ∀ i a, R (f i a) (g i a)) :
    List.Forall₂ R (l.mapIdx f) (l.mapIdx g) := by
  induction l generalizing f g
  case nil => exact .nil
  case cons a l hi =>
    rw [List.mapIdx_cons, List.mapIdx_cons]
    exact .cons (h 0 a) (hi fun i a => h (i + 1) a)

theorem graphExpansion_again {collectionId : CollectionId} {depth maxDepth : Int32}
    {entityTypes : Option (List String)} (hw : w.Like w')
    (h : graphExpansion u w entity (some collectionId) depth maxDepth entityTypes = .ok pairs) :
    Numbered w 0 pairs ∧ ∀ pairs', graphExpansion u w'
      entity (some collectionId) depth maxDepth entityTypes = .ok pairs' →
        List.Forall₂ Alike pairs' pairs := by
  unfold graphExpansion at *
  by_cases hd : maxDepth < depth + 1
  case pos =>
    rw [if_pos hd] at *
    rw [← Except.pure_eq_ok.mp h]
    refine ⟨fun i hi => absurd hi (Nat.not_lt_zero i), fun pairs' h' => ?_⟩
    rw [← Except.pure_eq_ok.mp h']
    exact .nil
  case neg =>
    rw [if_neg hd] at *
    obtain ⟨neighbors, hn, hp⟩ := Except.bind_eq_ok.mp h
    rw [← Except.pure_eq_ok.mp hp]
    refine ⟨fun i hi => ?_, fun pairs' h' => ?_⟩
    case refine_1 =>
      rw [List.getElem_mapIdx, Nat.zero_add]
      rfl
    case refine_2 =>
      obtain ⟨neighbors', hn', hp'⟩ := Except.bind_eq_ok.mp h'
      cases (hw.neighbors _ _ _ hn').symm.trans hn
      rw [← Except.pure_eq_ok.mp hp']
      exact forall₂_mapIdx fun _ _ => ⟨rfl, rfl, rfl, rfl⟩

theorem expandWithin_ensures (hw : w.Like w') (hi : w.newId.Injective) (hc : s.Consistent lib)
    (hf : Fresh w 0 s) :
    (expandWithin u w budget params entity).Ensures s (fun summary s' => s'.Consistent lib ∧
      s.Grows s' ∧ ∀ t, s'.Grows t → t.Consistent lib →
        Repeats (expandWithin u w' budget params entity)
          { summary with counts := ⟨summary.counts.written, 0⟩ } t) fun _ _ => True := by
  rw [expandWithin, Resumption.ensures_ofExcept_bind]
  intro pairs hp
  obtain ⟨hn, hagain⟩ := graphExpansion_again hw hp
  rw [Resumption.ensures_bind]
  refine (writePairs_ensures hi hn (fit_graphExpansion hp) hc hf).mono ?_ fun _ _ _ => trivial
  rintro counts₁ s₁ ⟨hc₁, hg₁, hf₁, hr₁⟩
  rw [Resumption.ensures_ite]
  constructor
  case left =>
    intro hcap
    refine ⟨hc₁, hg₁, fun t ht htc => ?_⟩
    refine Resumption.respects_ofExcept_bind fun pairs' hp' => ?_
    have hl := hagain pairs' hp'
    refine (hr₁ t ht htc pairs' hl 0).bind ?_
    dsimp only
    rw [if_pos hcap, hl.length_eq]
    exact repeats_pure
  case right =>
    intro hcap
    rw [Resumption.ensures_ofExcept_bind]
    intro sourceIds hs
    rw [Nat.zero_add] at hf₁
    rw [Resumption.ensures_bind]
    refine (writeSources_ensures hw hi hc₁ hf₁).mono ?_ fun _ _ _ => trivial
    rintro counts' s' ⟨hc', hg', hr'⟩
    refine ⟨hc', hg₁.trans hg', fun t ht htc => ?_⟩
    refine Resumption.respects_ofExcept_bind fun pairs' hp' => ?_
    have hl := hagain pairs' hp'
    refine (hr₁ t (hg'.trans ht) htc pairs' hl 0).bind ?_
    dsimp only
    rw [if_neg hcap, hl.length_eq]
    refine respects_again hs (hw.sourcesOf _ _) ((hr' t ht htc _ 0).bind ?_)
    exact repeats_pure

theorem consumeRequest_cases {collectionId : CollectionId} {limit : Int}
    {consumption : DailyConsume}
    (h : consumeRequest w collectionId limit s = .ok (consumption, s')) : Idle s s' := by
  unfold consumeRequest at h
  split at h
  case h_1 => cases h; exact ⟨_, rfl⟩
  case h_2 => cases h

theorem Idle.consistent (h : Idle s s') (hc : s.Consistent lib) : s'.Consistent lib := by
  obtain ⟨requests, rfl⟩ := h
  exact hc.step (.consume _)

theorem Idle.grows (h : Idle s s') : s.Grows s' := by
  obtain ⟨_, rfl⟩ := h
  exact ⟨.refl, fun _ h => h⟩

theorem expand_ensures (hw : w.Like w') (hi : w.newId.Injective) (hc : s.Consistent lib)
    (hf : Fresh w 0 s) :
    (expand u w params).Ensures s (fun summary s' => s'.Consistent lib ∧ s.Grows s' ∧
      ∀ t, s'.Grows t → t.Consistent lib → (expand u w' params).Respects (· = ·) Idle
        (fun summary' _ => summary' = { summary with counts := ⟨summary.counts.written, 0⟩ }) t)
      fun _ _ => True := by
  rw [expand, Resumption.ensures_ofExcept_bind]
  intro entity he
  cases entity
  case none => trivial
  case some entity =>
    rw [Resumption.ensures_ofExcept_bind]
    intro b hb
    rw [Resumption.ensures_ite]
    refine ⟨fun _ => trivial, fun hd => ?_⟩
    rw [Resumption.ensures_bind, Resumption.ensures_transact]
    refine ⟨fun consumption s₁ hs => ?_, fun _ _ => trivial⟩
    rw [Resumption.ensures_ite]
    refine ⟨fun _ => ?_, fun _ => trivial⟩
    have h₁ := consumeRequest_cases hs
    have hf₁ : Fresh w 0 s₁ := by
      obtain ⟨_, rfl⟩ := h₁
      exact hf
    refine (expandWithin_ensures hw hi (h₁.consistent hc) hf₁).mono ?_ fun _ _ _ => trivial
    rintro summary s' ⟨hc', hg, hr⟩
    refine ⟨hc', h₁.grows.trans hg, fun t ht htc => ?_⟩
    refine respects_again he (hw.getEntity _) (respects_again hb (hw.getBudget _) ?_)
    rw [if_neg hd]
    refine (Resumption.respects_transact (Q := fun _ t' => Idle t t') (fun _ => .refl) ?_).bind
      (fun _ => rfl) fun consumption t' h => ?_
    case refine_1 =>
      rintro _ consumption t' rfl hs'
      have h := consumeRequest_cases hs'
      exact ⟨h, fun _ he => he ▸ h⟩
    case refine_2 =>
      split
      case isTrue  => exact (hr t' (ht.trans h.grows) (h.consistent htc)).mono fun _ _ h => h.left
      case isFalse => exact Resumption.respects_fail

end Loops

theorem runGraphExpansion_ensures {parameters : Option Json} (hw : w.Like w')
    (hi : w.newId.Injective) (hc : s.Consistent lib) (hf : Fresh w 0 s) :
    (runGraphExpansion u w parameters).Ensures s (fun text s' => s'.Consistent lib ∧
      ∃ params summary, Parameters.decode parameters = .ok params ∧
        text = Summary.text summary params.entityId ∧
        ∀ t, s'.Grows t → t.Consistent lib →
          (runGraphExpansion u w' parameters).Respects (· = ·) Idle (fun text' _ =>
            text' = { summary with counts := ⟨summary.counts.written, 0⟩ }.text params.entityId) t)
      fun _ _ => True := by
  rw [runGraphExpansion, Resumption.ensures_ofExcept_bind]
  intro params hd
  rw [Resumption.ensures_bind]
  refine (expand_ensures hw hi hc hf).mono ?_ fun _ _ _ => trivial
  rintro summary s' ⟨hc', _, hr⟩
  refine ⟨hc', params, summary, hd, rfl, fun t ht htc => ?_⟩
  refine respects_again hd (fun _ => id) ?_
  refine (hr t ht htc).bind (fun _ => rfl) fun summary' t' h => ?_
  exact Resumption.respects_pure fun _ _ => h ▸ rfl

def oneNeighbor (newId : Nat → Uuid) : Surroundings where
  getEntity id    := .ok <| some {
    id := id, entityType := .product, name := "nginx", normalizedName := "nginx"
    description := none, confidence := 1, firstSeen := 0, lastSeen := 0, mergedInto := none
    attributes := .null }
  getBudget _     := .ok none
  neighbors _ _   := .ok [⟨7, "vulnerability", "CVE-2021-23017", .null⟩]
  sourcesOf _ _   := .ok []
  getSource _     := .ok none
  today           := 0
  expandedAt      := 0
  sourcesReadAt   := 0
  newId           := newId

def someParameters : Json :=
  .object [("entity_id", .string "00000000-0000-0000-0000-000000000001"),
    ("collection_id", .string "00000000-0000-0000-0000-000000000002")]

-- The second access to the store takes effect, but is not answered.
def unanswered (n : Nat) : Option (Fault String) :=
  if n = 1 then some (.unacknowledged "timeout") else none

end Discovery
