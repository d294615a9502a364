import OsintCore.Resources.Theorems.Stages

namespace Resources

section Run

variable {ι : Type} {requests : ι → PostRequest} {calls : ι → Call}
variable {start : ResourceStore} {p : Pool ι ResourceStore ApiError Created}

-- All requests are at their beginning.
def posts (requests : ι → PostRequest) (calls : ι → Call) (start : ResourceStore) :
    Pool ι ResourceStore ApiError Created where
  shared     := start
  programs i := (requests i).post (calls i)

def successEntry (requests : ι → PostRequest) (calls : ι → Call) (i : ι) : Created → AuditEntry :=
  (requests i).creation.successEntry (calls i)

-- A request whose turn it is to write, and whose write is carried out, finds no row in its place.
def FindsNoRow (requests : ι → PostRequest) (calls : ι → Call)
    (p : Pool ι ResourceStore ApiError Created) (i : ι) : Prop :=
  ∀ row, p.programs i = (requests i).creation.save (calls i) row →
    (calls i).reply .write ≠ .failed → p.shared.row? ((requests i).creation.row row).key = none

-- Who gets a 201 is the only one for the key, and the row and the audit record are its own.
structure CreatedOnce (requests : ι → PostRequest) (calls : ι → Call) (start : ResourceStore)
    (p : Pool ι ResourceStore ApiError Created) : Prop where
  unique   : ∀ i j a b, p.programs i = .done a → p.programs j = .done b →
    a.row.key = b.row.key → i = j
  stored   : ∀ i a, p.programs i = .done a →
    (requests i).row (calls i) = .ok a.row ∧ p.shared.row? a.row.key = some a.row
  recorded : ∃ added, p.shared.auditLog = start.auditLog ++ added ∧
    (∀ e ∈ added, e.outcome = "success" →
      ∃ i a, p.programs i = .done a ∧ e = successEntry requests calls i a) ∧
    ∀ i a, p.programs i = .done a → (calls i).reply .append ≠ .failed →
      successEntry requests calls i a ∈ added

-- The same before the rows are reported.
structure Progress (requests : ι → PostRequest) (calls : ι → Call) (start : ResourceStore)
    (marks : ι → Mark) (p : Pool ι ResourceStore ApiError Created) : Prop where
  stage    : ∀ i, Stage (requests i).creation (calls i) ((requests i).row ·) (marks i)
    (p.programs i)
  unique   : ∀ i j r r', (marks i).row = some r → (marks j).row = some r' → r.key = r'.key → i = j
  stored   : ∀ i r, (marks i).row = some r →
    (requests i).row (calls i) = .ok r ∧ p.shared.row? r.key = some r
  recorded : ∃ added, p.shared.auditLog = start.auditLog ++ added ∧
    (∀ e ∈ added, e.outcome = "success" →
      ∃ i a, marks i = .created a ∧ e = successEntry requests calls i a) ∧
    ∀ i a, marks i = .created a → (calls i).reply .append ≠ .failed →
      successEntry requests calls i a ∈ added

namespace Progress

variable {marks : ι → Mark} {i : ι}

theorem init : Progress requests calls start (fun _ => .unreported none) (posts requests calls start) where
  stage i   := by
    simp only [posts, PostRequest.post_eq_create]
    exact stage_create (requests i).sound
  unique    := fun _ _ _ _ h => nomatch h
  stored    := fun _ _ h => nomatch h
  recorded  := by
    refine ⟨[], (List.append_nil _).symm, fun _ h => ?_, fun _ _ h => ?_⟩
    all_goals cases h

theorem createdOnce (h : Progress requests calls start marks p) :
    CreatedOnce requests calls start p where
  unique i j a b hi hj he := by
    have hi := (hi ▸ h.stage i).eq_created
    have hj := (hj ▸ h.stage j).eq_created
    exact h.unique i j a.row b.row (by rw [hi]; rfl) (by rw [hj]; rfl) he
  stored i a hi := by
    have hi := (hi ▸ h.stage i).eq_created
    exact h.stored i a.row (by rw [hi]; rfl)
  recorded := by
    have ⟨added, ha, hn, hc⟩ := h.recorded
    refine ⟨added, ha, fun e he hs => ?_, fun i a hi => hc i a (hi ▸ h.stage i).eq_created⟩
    have ⟨i, a, hi, he⟩ := hn e he hs
    exact ⟨i, a, (hi ▸ h.stage i).eq_done, he⟩

variable [DecidableEq ι]

-- The marks stay while the request does nothing to the rows and reports no success.
theorem rest (h : Progress requests calls start marks p)
    (hs : Stage (requests i).creation (calls i) ((requests i).row ·) (marks i)
      ((p.programs i).advance p.shared).snd)
    (hr : (p.step i).shared.row? = p.shared.row?)
    (hl : (p.step i).shared.auditLog = p.shared.auditLog ∨
      ∃ e, (p.step i).shared.auditLog = p.shared.auditLog ++ [e] ∧ e.outcome ≠ "success") :
    Progress requests calls start marks (p.step i) where
  stage    := Pool.step_forall (A := fun i x _ => Stage (requests i).creation (calls i)
    ((requests i).row ·) (marks i) x) hs fun j _ => h.stage j
  unique   := h.unique
  stored   := by rw [hr]; exact h.stored
  recorded := by
    have ⟨added, ha, hn, hc⟩ := h.recorded
    cases hl
    case inl hl => exact ⟨added, hl.trans ha, hn, hc⟩
    case inr hl =>
      have ⟨e, hl, he⟩ := hl
      refine ⟨added ++ [e], by rw [hl, ha, List.append_assoc], fun e' he' => ?_, fun j a hj hp => ?_⟩
      · obtain he' | he' := List.mem_append.mp he'
        · exact hn e' he'
        · cases List.mem_singleton.mp he'
          exact fun h => absurd h he
      · exact List.mem_append_left _ (hc j a hj hp)

theorem store (h : Progress requests calls start marks p) {row : Row}
    (hs : Stage (requests i).creation (calls i) ((requests i).row ·) (.unreported row)
      ((p.programs i).advance p.shared).snd)
    (hm : marks i = .unreported none) (hn : p.shared.row? row.key = none)
    (ha : (requests i).row (calls i) = .ok row) (hr : Adds row p.shared (p.step i).shared) :
    Progress requests calls start (Function.update marks i (.unreported row)) (p.step i) := by
  have hw (j : ι) (r : Row) (hj : (Function.update marks i (.unreported row) j).row = some r) :
      j = i ∧ r = row ∨ j ≠ i ∧ (marks j).row = some r := by
    by_cases h : j = i
    case pos => subst h; simpa [Mark.row, eq_comm] using hj
    case neg => simpa [h] using hj
  have hk {j : ι} {r : Row} (hj : (marks j).row = some r) : r.key ≠ row.key := by
    intro he
    have := (h.stored j r hj).right
    simp [he, hn] at this
  refine ⟨?stage, fun j j' r r' hj hj' he => ?unique, fun j r hj => ?stored, ?recorded⟩
  case stage =>
    refine Pool.step_forall (A := fun j x _ => Stage (requests j).creation (calls j)
      ((requests j).row ·) (Function.update marks i (.unreported row) j) x) ?_ fun j hj => ?_
    · simpa using hs
    · simpa [hj] using h.stage j
  case unique =>
    obtain ⟨hi, rfl⟩ | ⟨_, hw₁⟩ := hw j r hj
    · obtain ⟨hi', _⟩ | ⟨_, hw₂⟩ := hw j' r' hj'
      · exact hi.trans hi'.symm
      · exact absurd he.symm (hk hw₂)
    · obtain ⟨_, rfl⟩ | ⟨_, hw₂⟩ := hw j' r' hj'
      · exact absurd he (hk hw₁)
      · exact h.unique j j' r r' hw₁ hw₂ he
  case stored =>
    rw [hr.row?]
    obtain ⟨rfl, rfl⟩ | ⟨_, hw⟩ := hw j r hj
    · simpa using ha
    · simpa [hk hw] using h.stored j r hw
  case recorded =>
    have ⟨added, hl, hn, hc⟩ := h.recorded
    refine ⟨added, hr.auditLog.trans hl, fun e he hs => ?_, fun j a hj => hc j a ?_⟩
    · have ⟨j, a, hj, he⟩ := hn e he hs
      refine ⟨j, a, ?_, he⟩
      have : j ≠ i := by rintro rfl; simp [hm] at hj
      simpa [this] using hj
    · have : j ≠ i := by rintro rfl; simp at hj
      simpa [this] using hj

theorem accept (h : Progress requests calls start marks p) {a : Created}
    (hs : Stage (requests i).creation (calls i) ((requests i).row ·) (.created a)
      ((p.programs i).advance p.shared).snd)
    (hm : marks i = .unreported a.row) (hr : (p.step i).shared.row? = p.shared.row?)
    (hl : (p.step i).shared.auditLog = if (calls i).reply .append = .failed then p.shared.auditLog
      else p.shared.auditLog ++ [successEntry requests calls i a]) :
    Progress requests calls start (Function.update marks i (.created a)) (p.step i) := by
  have hw (j : ι) : (Function.update marks i (.created a) j).row = (marks j).row := by
    by_cases h : j = i
    case pos => subst h; simp [hm, Mark.row]
    case neg => simp [h]
  have hj' {j : ι} {b : Created} (hj : marks j = .created b) :
      Function.update marks i (.created a) j = .created b := by
    have : j ≠ i := by rintro rfl; simp [hm] at hj
    simpa [this] using hj
  refine ⟨?stage, by simpa only [hw] using h.unique, by simpa only [hw, hr] using h.stored, ?_⟩
  case stage =>
    refine Pool.step_forall (A := fun j x _ => Stage (requests j).creation (calls j)
      ((requests j).row ·) (Function.update marks i (.created a) j) x) ?_ fun j hj => ?_
    · simpa using hs
    · simpa [hj] using h.stage j
  have ⟨added, ha, hn, hc⟩ := h.recorded
  have old (e : AuditEntry) (he : e ∈ added) (hs : e.outcome = "success") :
      ∃ j b, Function.update marks i (.created a) j = .created b ∧
        e = successEntry requests calls j b := by
    have ⟨j, b, hj, he⟩ := hn e he hs
    exact ⟨j, b, hj' hj, he⟩
  split at hl
  case isTrue hf =>
    refine ⟨added, hl.trans ha, old, fun j b hj hp => hc j b ?_ hp⟩
    have : j ≠ i := by rintro rfl; exact hp hf
    simpa [this] using hj
  case isFalse =>
    refine ⟨added ++ [successEntry requests calls i a], by rw [hl, ha, List.append_assoc],
      fun e he hs => ?_, fun j b hj hp => ?_⟩
    · obtain he | he := List.mem_append.mp he
      · exact old e he hs
      · exact ⟨i, a, by simp, List.mem_singleton.mp he⟩
    · by_cases h : j = i
      case pos =>
        subst h
        simp only [Function.update_self, Mark.created.injEq] at hj
        simp [hj]
      case neg => exact List.mem_append_left _ (hc j b (by simpa [h] using hj) hp)

theorem step (h : Progress requests calls start marks p) (hf : FindsNoRow requests calls p i) :
    ∃ marks', Progress requests calls start marks' (p.step i) ∧
      ∀ k r, p.shared.row? k = some r → (p.step i).shared.row? k = some r := by
  have ⟨m, hs, hm⟩ := (h.stage i).advance (requests i).sound p.shared
  have he : (p.step i).shared = ((p.programs i).advance p.shared).fst := rfl
  generalize hi : marks i = m₀ at hm
  rw [← he] at hm
  generalize hp : (p.step i).shared = s' at hm
  cases hm
  case rest =>
    subst hi
    exact ⟨marks, h.rest hs (by rw [hp]) (.inl (by rw [hp])), fun _ _ => id⟩
  case reject e hr hl =>
    subst hi hp
    have hn : ((requests i).creation.rejectedEntry (calls i) e).outcome ≠ "success" := by
      simp [Creation.rejectedEntry]
    exact ⟨marks, h.rest hs hr (hl.imp_right fun hl => ⟨_, hl, hn⟩),
      fun k r => by rw [hr]; exact id⟩
  case store row hx hc ha hr =>
    subst hp
    have hn := hf row hx hc
    refine ⟨_, h.store hs hi hn ha hr, fun k r hk => ?_⟩
    have : k ≠ ((requests i).creation.row row).key := by rintro rfl; simp [hn] at hk
    rw [hr.row?, if_neg this, hk]
  case accept a hr hl =>
    subst hp
    exact ⟨_, h.accept hs hi hr hl, fun k r => by rw [hr]; exact id⟩

end Progress

-- Whoever takes the turns: there is one 201 for a key, and a row stays as it is.
theorem run_createdOnce [DecidableEq ι] (requests : ι → PostRequest) (calls : ι → Call)
    (start : ResourceStore) (l₁ l₂ : List ι)
    (h : (l₁ ++ l₂).Along Pool.step (FindsNoRow requests calls) (posts requests calls start)) :
    CreatedOnce requests calls start ((posts requests calls start).run (l₁ ++ l₂)) ∧
      ∀ k r, ((posts requests calls start).run l₁).shared.row? k = some r →
        ((posts requests calls start).run (l₁ ++ l₂)).shared.row? k = some r := by
  have ⟨h₁, h₂⟩ := List.along_append.mp h
  have hp := h₁.foldl (P := fun p => ∃ marks, Progress requests calls start marks p) ⟨_, .init⟩
    fun p i ⟨_, hp⟩ hf => have ⟨marks, h, _⟩ := hp.step hf; ⟨marks, h⟩
  have ⟨⟨_, hm⟩, hk⟩ := h₂.foldl (P := fun q => (∃ marks, Progress requests calls start marks q) ∧
      ∀ k r, ((posts requests calls start).run l₁).shared.row? k = some r →
        q.shared.row? k = some r) ⟨hp, fun _ _ => id⟩ fun q i ⟨⟨_, hq⟩, hk⟩ hf =>
    have ⟨marks, h, hs⟩ := hq.step hf
    ⟨⟨marks, h⟩, fun k r hr => hs k r (hk k r hr)⟩
  rw [← List.foldl_append] at hm hk
  exact ⟨hm.createdOnce, hk⟩

end Run

namespace Sample

-- Two operators create a source under the same identifier.
def requests (b : Bool) : PostRequest :=
  .source { id := some 1, name := if b then "first" else "second", sourceType := .rss }

def calls (b : Bool) : Call where
  role            := .operator
  subject         := "operator"
  ip              := none
  now             := 0
  newId           := 2
  eventId         := 3
  auditId         := 4 + b.toNat
  auditedAt       := 0
  databaseMessage := ""
  reply _         := .answered

def doneKey : M Created → Option (Kind × Uuid)
  | .done a => a.row.key
  | _       => none

theorem exists_of_doneKey {x : M Created} {k : Kind × Uuid} (h : doneKey x = k) :
    ∃ a, x = .done a ∧ a.row.key = k := by
  cases x
  case done a => exact ⟨a, rfl, Option.some.inj h⟩
  all_goals cases h

-- Both look for the source before either of them writes it.
def overlap : Pool Bool ResourceStore ApiError Created :=
  (posts requests calls {}).run [true, false, true, false, true, false]

theorem overlap_done (b : Bool) : doneKey (overlap.programs b) = some (.source, 1) := by
  cases b <;> decide +kernel

-- The access of a program which is not at its write leaves a store without sources without them.
theorem findsNoRow {p : Pool Bool ResourceStore ApiError Created} {b : Bool}
    (h : p.shared.sources.rows.isEmpty ∨ ((p.programs b).advance {}).fst.sources.rows.isEmpty) :
    FindsNoRow requests calls p b := by
  intro source hs _
  cases h
  case inl h =>
    change Row.source <$> p.shared.sources.get? source.id = none
    simp [Table.get?, List.isEmpty_iff.mp h]
  case inr h =>
    rw [hs, save_eq] at h
    exact absurd h Bool.false_ne_true

end Sample

-- Who comes second is told that the source exists.
theorem run_createdOnce_sequential :
    CreatedOnce Sample.requests Sample.calls {}
      ((posts Sample.requests Sample.calls {}).run ([true, true, true] ++ [false, false])) ∧
      ∀ k r, ((posts Sample.requests Sample.calls {}).run [true, true, true]).shared.row? k = some r →
        ((posts Sample.requests Sample.calls {}).run
          ([true, true, true] ++ [false, false])).shared.row? k = some r :=
  run_createdOnce _ _ _ _ _ ⟨Sample.findsNoRow (by decide +kernel),
    Sample.findsNoRow (by decide +kernel), Sample.findsNoRow (by decide +kernel),
    Sample.findsNoRow (by decide +kernel), Sample.findsNoRow (by decide +kernel), trivial⟩

theorem not_run_createdOnce : ¬CreatedOnce Sample.requests Sample.calls {} Sample.overlap := by
  intro h
  have ⟨a, ha, hk⟩ := Sample.exists_of_doneKey (Sample.overlap_done true)
  have ⟨b, hb, hk'⟩ := Sample.exists_of_doneKey (Sample.overlap_done false)
  exact absurd (h.unique true false a b ha hb (hk.trans hk'.symm)) (by decide)

end Resources
