import OsintCore.Dedup.Service
import OsintCore.Dedup.Theorems.Backward
import OsintCore.Objects.Theorems.Utf8
import OsintCore.Resources.Candidates
import OsintCore.Url.Theorems.Canonical

-- A text of more than `max` bytes can be cut behind the first `n` bytes.
def CutAt (max n : Nat) (s : String) : Prop :=
  max < Text.byteLen s.toList → Text.isCharBoundary s n

instance {max n : Nat} {s : String} : Decidable (CutAt max n s) :=
  inferInstanceAs (Decidable (_ → _))

section Cut

variable {s whole : String} {max n : Nat} {f : String → String}

theorem isOk_cut : (if Text.byteLen s.toList ≤ max then pure whole
    else do let start ← Text.sliceTo s n; return f start : Except Panic String).isOk ↔
      CutAt max n s := by
  unfold CutAt
  rw [← Text.isOk_sliceTo]
  split_ifs with h
  case pos => exact iff_of_true rfl fun hn => absurd h (Nat.not_le.mpr hn)
  case neg =>
    rw [imp_iff_right (Nat.not_le.mp h)]
    cases Text.sliceTo s n <;> rfl

theorem isOk_short : (UrlNorm.short s).isOk ↔ CutAt 120 120 s :=
  isOk_cut

theorem isOk_redactForError : (Resources.SecretRef.redactForError s).isOk ↔ CutAt 12 4 s :=
  isOk_cut

end Cut

namespace Deduplicator

variable {w : Deduplicator} {lib : UrlLib} {debugEnabled : Bool} {document : Document}

-- The text of the URL is cut in the log.
def Logged (lib : UrlLib) (raw : String) : Prop :=
  ¬UrlNorm.isSyntheticImportUrl raw ∧ lib.parse (Text.trim raw) = none

theorem isOk_logUnusable {raw : String} :
    (logUnusable debugEnabled raw).isOk ↔ (debugEnabled → CutAt 120 120 raw) := by
  unfold logUnusable
  cases debugEnabled
  case false => exact iff_of_true rfl nofun
  case true =>
    rw [← isOk_short, imp_iff_right rfl]
    cases UrlNorm.short raw <;> rfl

theorem isOk_canonicalUrlFor {sourceUrl : Option String} :
    (canonicalUrlFor lib debugEnabled sourceUrl).isOk ↔
      (debugEnabled → ∀ raw ∈ sourceUrl, Logged lib raw → CutAt 120 120 raw) := by
  cases sourceUrl
  case none => exact iff_of_true rfl fun _ _ => nofun
  case some raw =>
    have hlog : (logUnusable debugEnabled raw).isOk ↔ (debugEnabled → CutAt 120 120 raw) :=
      isOk_logUnusable
    by_cases hs : UrlNorm.isSyntheticImportUrl raw
    case pos => exact iff_of_true (by simp [canonicalUrlFor, hs]; rfl) <| by simp [Logged, hs]
    case neg =>
      cases hp : lib.parse (Text.trim raw)
      case some url =>
        exact iff_of_true (by simp [canonicalUrlFor, hs, UrlNorm.canonicalize_eq, hp]; rfl) <| by
          simp [Logged, hp]
      case none =>
        have he : canonicalUrlFor lib debugEnabled (some raw) =
            (do logUnusable debugEnabled raw; return none) := by
          simp [canonicalUrlFor, hs, UrlNorm.canonicalize_eq, hp]
          rfl
        have hl : Logged lib raw := ⟨hs, hp⟩
        simp only [he, Option.mem_def, Option.some.injEq, forall_eq', hl, true_imp_iff, ← hlog]
        cases logUnusable debugEnabled raw <;> rfl

theorem platformOf_run {σ : Store} :
    (w.platformOf document).run σ = (.ok (w.platformIn σ document), σ) := by
  unfold platformOf platformIn
  cases w.rawEvidenceIdOf document
  case none => rfl
  case some rawId =>
    simp only [Resumption.run_bind, Resumption.run_read, Option.bind_eq_bind, Option.bind_some]
    cases σ.getRawEvidence rawId
    case none => rfl
    case some => rfl

theorem deriveKeysLogged_completes {σ : Store} :
    (∃ keys, ((w.deriveKeysLogged lib debugEnabled document).run σ).fst = .ok (.ok keys)) ↔
      (debugEnabled → ∀ raw ∈ document.sourceUrl, Logged lib raw → CutAt 120 120 raw) := by
  rw [← isOk_canonicalUrlFor, deriveKeysLogged, Resumption.run_bind, platformOf_run]
  cases canonicalUrlFor lib debugEnabled document.sourceUrl
  case error e => exact iff_of_false (fun ⟨_, h⟩ => nomatch Except.ok.inj h) nofun
  case ok url  => exact iff_of_true ⟨_, rfl⟩ rfl

end Deduplicator

namespace Resources

variable {lib : UrlLib} {a : CandidateAnswers} {id : CandidateId} {c : Candidate}

-- The text of the candidate is cut in the error about it.
def Refused (lib : UrlLib) (c : Candidate) : Prop :=
  c.candidateType = .url ∧ ¬UrlNorm.isHttpOrHttps lib c.value

theorem isOk_throw_short {f : String → ApiError} {s : String} :
    (do throw (f (← UrlNorm.short s)) : Request Unit).run.isOk ↔ CutAt 120 120 s := by
  rw [← isOk_short]
  cases UrlNorm.short s <;> rfl

theorem isOk_validateUrl : (validateUrl lib id c).run.isOk ↔ (Refused lib c → CutAt 120 120 c.value) := by
  unfold validateUrl Refused
  by_cases hc : c.candidateType = .url
  case neg => exact iff_of_true (by simp [hc]; rfl) fun h => absurd h.left hc
  case pos =>
    cases hp : lib.parse (Text.trim c.value)
    case none =>
      have hw : ¬UrlNorm.isHttpOrHttps lib c.value := by simp [UrlNorm.isHttpOrHttps, hp]
      rw [imp_iff_right ⟨hc, hw⟩, ← isOk_throw_short (f := notUrl id)]
      simp only [hc, UrlNorm.canonicalize_eq, hp]
      cases UrlNorm.short c.value <;> rfl
    case some url =>
      by_cases hw : UrlNorm.isHttpOrHttps lib c.value
      case pos =>
        refine iff_of_true ?_ fun h => absurd hw h.right
        simp only [hc, UrlNorm.canonicalize_eq, hp, approvableUrlScheme, hw]
        rfl
      case neg =>
        rw [imp_iff_right ⟨hc, hw⟩, ← isOk_throw_short (f := notWebUrl id)]
        simp only [hc, UrlNorm.canonicalize_eq, hp, approvableUrlScheme, hw]
        cases UrlNorm.short c.value <;> rfl

section Steps

variable {α β : Type} {x : Request α} {f : α → Request β}

theorem isOk_bind : (x >>= f).run.isOk ↔
    x.run.isOk ∧ ∀ a, x.run = .ok (.ok a) → (f a).run.isOk := by
  rw [ExceptT.run_bind]
  rcases x.run with e | e | a
  case error    => exact iff_of_false nofun fun h => nomatch h.left
  case ok.error => exact iff_of_true rfl ⟨rfl, nofun⟩
  case ok.ok    =>
    constructor
    case mp  => exact fun h => ⟨rfl, fun _ he => Except.ok.inj (Except.ok.inj he) ▸ h⟩
    case mpr => exact fun h => h.right a rfl

-- What the store answers is no panic.
theorem isOk_answer_bind {r : Except ApiError α} :
    ((r : Request α) >>= f).run.isOk ↔ ∀ a, r = .ok a → (f a).run.isOk := by
  cases r
  case error e => exact iff_of_true rfl nofun
  case ok a    => exact ⟨fun h _ he => Except.ok.inj he ▸ h, fun h => h a rfl⟩

theorem isOk_found_bind {o : Option Candidate} {f : Candidate → Request β} :
    (found id o >>= f).run.isOk ↔ ∀ c ∈ o, (f c).run.isOk := by
  cases o
  case none   => exact iff_of_true rfl nofun
  case some c => exact ⟨fun h _ he => Option.some.inj he ▸ h, fun h => h c rfl⟩

theorem isOk_changeStatus {status : CandidateStatus} {topic : String} :
    (changeStatus a id status topic).run.isOk := by
  unfold changeStatus
  refine isOk_answer_bind.mpr fun _ _ => isOk_answer_bind.mpr fun _ _ => ?_
  refine isOk_found_bind.mpr fun current _ => ?_
  split_ifs
  case pos => exact isOk_answer_bind.mpr fun _ _ => rfl
  case neg =>
    refine isOk_answer_bind.mpr fun updated _ => ?_
    cases updated
    case false =>
      refine isOk_answer_bind.mpr fun _ _ => isOk_found_bind.mpr fun _ _ => ?_
      exact isOk_answer_bind.mpr fun _ _ => rfl
    case true =>
      refine isOk_answer_bind.mpr fun latest _ => ?_
      cases latest
      case none => rfl
      case some =>
        exact isOk_answer_bind.mpr fun _ _ => isOk_answer_bind.mpr fun _ _ => rfl

end Steps

-- The request comes to the gate, and the gate refuses the candidate.
def CutIn (lib : UrlLib) (a : CandidateAnswers) (validate : Bool) (c : Candidate) : Prop :=
  validate ∧ a.store = .ok () ∧ a.validated = .ok (some c) ∧ Refused lib c

theorem isOk_setCandidateStatus {status : CandidateStatus} {validate : Bool} :
    (setCandidateStatus lib a id status validate).run.isOk ↔
      ∀ c, CutIn lib a validate c → CutAt 120 120 c.value := by
  have hrest : ∀ u : Unit, (do
      let topic ← candidateTopic status
      changeStatus a id status topic : Request Candidate).run.isOk := fun _ =>
    isOk_bind.mpr ⟨by cases status <;> rfl, fun _ _ => isOk_changeStatus⟩
  unfold setCandidateStatus
  rw [isOk_answer_bind]
  cases validate
  case false => exact iff_of_true (fun u _ => hrest u) fun _ h => absurd h.left (by decide)
  case true =>
    constructor
    case mp =>
      intro h c ⟨_, hs, hv, hr⟩
      have hgate := isOk_found_bind.mp (isOk_answer_bind.mp (h () hs) _ hv) c rfl
      exact isOk_validateUrl.mp (isOk_bind.mp hgate).left hr
    case mpr =>
      intro h u hs
      refine isOk_answer_bind.mpr fun o hv => isOk_found_bind.mpr fun c hc => ?_
      refine isOk_bind.mpr ⟨isOk_validateUrl.mpr fun hr => ?_, fun u _ => hrest u⟩
      exact h c ⟨rfl, hs, Option.mem_def.mp hc ▸ hv, hr⟩

end Resources

namespace Slices

-- The texts which are cut in the middle of a character, in the log of the deduplicator, in an error
-- of the API and in an error about the configuration, are the only ones which abort a run.
theorem completes_iff (w : Deduplicator) (lib : UrlLib) (debugEnabled : Bool)
    (document : Document) (σ : Store) (a : Resources.CandidateAnswers) (id : CandidateId)
    (status : CandidateStatus) (validate : Bool) (value raw : String) :
    ((∃ keys, ((w.deriveKeysLogged lib debugEnabled document).run σ).fst = .ok (.ok keys)) ↔
      (debugEnabled → ∀ raw ∈ document.sourceUrl, Deduplicator.Logged lib raw →
        CutAt 120 120 raw)) ∧
    ((Resources.setCandidateStatus lib a id status validate).run.isOk ↔
      ∀ c, Resources.CutIn lib a validate c → CutAt 120 120 c.value) ∧
    ((Resources.SecretRef.redactForError value).isOk ↔ CutAt 12 4 value) ∧
    (UrlNorm.canonicalize lib raw).isOk :=
  ⟨Deduplicator.deriveKeysLogged_completes,
   Resources.isOk_setCandidateStatus,
   isOk_redactForError,
   UrlNorm.canonicalize_eq ▸ rfl⟩

end Slices

namespace Sample

-- The last character takes the bytes from 119 to 121.
def longText : String :=
  .ofList <| List.replicate 119 'a' ++ ['界']

def candidate : Candidate where
  id              := 1
  candidateType   := .url
  value           := longText
  normalizedValue := longText
  collectionId    := none
  discoveredBy    := "feed"
  discoveryMethod := "link"
  confidence      := 1
  score           := 1
  status          := .pending
  depth           := 0
  createdAt       := 0
  reviewedAt      := none

def answers : Resources.CandidateAnswers where
  store      := .ok ()
  validated  := .ok (some candidate)
  begin      := .ok ()
  current    := .ok (some candidate)
  updated    := .ok true
  latest     := .ok (some candidate)
  enqueued _ := .ok ()
  committed  := .ok ()

end Sample

namespace Slices

theorem not_completes :
    (¬∀ document : Document, ∃ keys, ((Sample.deduplicator.deriveKeysLogged
      Sample.noUrls true document).run {}).fst = .ok (.ok keys)) ∧
    (¬∀ a : Resources.CandidateAnswers,
      (Resources.setCandidateStatus Sample.noUrls a 1 .approved true).run.isOk) ∧
    (¬∀ value : String, (Resources.SecretRef.redactForError value).isOk) := by
  refine ⟨fun h => ?_, fun h => ?_, fun h => ?_⟩
  case refine_1 =>
    have hk := h { Sample.note 1 "" with sourceUrl := some Sample.longText }
    have hc := Deduplicator.deriveKeysLogged_completes.mp hk rfl _ rfl ⟨by decide +kernel, rfl⟩
    exact absurd hc <| by decide +kernel
  case refine_2 =>
    have hr := Resources.isOk_setCandidateStatus.mp (h Sample.answers) Sample.candidate
      ⟨rfl, rfl, rfl, rfl, by decide⟩
    exact absurd hr <| by decide +kernel
  case refine_3 => exact absurd (isOk_redactForError.mp <| h "key密碼abcdefgh") <| by decide

end Slices
