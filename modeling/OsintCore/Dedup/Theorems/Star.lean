import OsintCore.Control.Fold
import OsintCore.Dedup.Theorems.Backward

open Resumption

-- Each duplicate names a document which is no duplicate itself.
def Store.Star (σ : Store) : Prop :=
  ∀ a b, σ.DuplicateOf a b → ∀ c, ¬σ.DuplicateOf b c

namespace Store

variable {σ τ : Store} {a b : DocumentId} {d : Document}

theorem Star.of_none (h : ∀ d ∈ σ.documents, d.duplicateOf = none) : σ.Star :=
  fun _ _ ⟨d, hd, _, hb⟩ => by simp [h d hd] at hb

theorem duplicateOf_put (h : τ.documents = σ.documents.put d) :
    τ.DuplicateOf a b ↔ if a = d.id then d.duplicateOf = some b else σ.DuplicateOf a b := by
  simp only [DuplicateOf, h, Table.mem_put, Document.key_eq]
  split_ifs with ha
  case pos => aesop
  case neg => aesop

end Store

namespace Deduplicator

variable {w : Deduplicator} {σ τ : Store} {c : Call} {d : Document}

-- A document is not a neighbour of itself.
theorem detect_ne {neighbours : Option (List SearchHit)} {a : DocumentId} {s : Confidence} {m : String}
    (h : w.detect d neighbours = .hit a s m) : a ≠ d.id := by
  have hf (hits : List SearchHit) : ∀ p ∈ hits.foldl (w.betterHit d) none, p.fst ≠ d.id := by
    refine List.foldl_invariant (P := fun best : Option (DocumentId × Confidence) =>
      ∀ p ∈ best, p.fst ≠ d.id) (by simp) fun best hit _ hb => ?_
    unfold betterHit
    split_ifs
    case pos => exact hb
    case neg =>
      split
      case h_1 => exact hb
      case h_2 canonical _ =>
        split_ifs with hc
        case neg => exact hb
        case pos => simpa using hc.left
  unfold detect at h
  split at h
  case h_1 => cases h
  case h_2 => cases h
  case h_3 =>
    split at h
    case h_1 => cases h
    case h_2 hb =>
      cases h
      exact hf _ _ hb

-- In a star the chain from a document is over after one step at most.
structure Centre (σ : Store) (a b : DocumentId) : Prop where
  found : (σ.getDocument a).isSome
  path  : a = b ∨ σ.DuplicateOf a b
  stops : ∀ c, ¬σ.DuplicateOf b c

theorem resolveFrom_stops {start b : DocumentId} {n : Nat} (hb : ∀ c, ¬σ.DuplicateOf b c) :
    (resolveFrom start (n + 1) b).Ensures σ (fun e τ => τ = σ ∧ ∀ b' ∈ e, b = b')
      fun _ τ => τ = σ ∧ False := by
  simp only [resolveFrom, ensures_bind, ensures_read]
  split
  case h_1 => exact ⟨rfl, by simp⟩
  case h_2 d hd =>
    split
    case h_1 next hn => exact absurd (Store.duplicateOf_iff hd |>.mpr hn) <| hb next
    case h_2         => exact ⟨rfl, by simp⟩

theorem resolves_centre (hs : σ.Star) : Resolves σ (Centre σ) fun _ => False := by
  intro a
  unfold resolveCanonical maxChainDepth resolveFrom
  simp only [ensures_bind, ensures_read]
  split
  case h_1 => exact ⟨rfl, by simp⟩
  case h_2 d hd =>
    have hf : (σ.getDocument a).isSome := by simp [hd]
    split
    case h_1 next hn =>
      have hn := Store.duplicateOf_iff hd |>.mpr hn
      have hne : next ≠ a := fun h => hs a next hn next (h ▸ h ▸ hn)
      rw [if_pos hne]
      refine (resolveFrom_stops <| hs a next hn).mono (fun e τ h => ⟨h.left, fun b hb => ?_⟩)
        fun _ _ h => h
      have hb := h.right b hb
      exact ⟨hf, .inr <| hb ▸ hn, hb ▸ hs a next hn⟩
    case h_2 hn =>
      refine ⟨rfl, fun b hb => ?_⟩
      cases hb
      exact ⟨hf, .inl rfl, fun c hc => by simp [Store.duplicateOf_iff hd, hn] at hc⟩

-- Nobody names the document already, or none of the stages finds anything to compare it with.
def KeepsStar (w : Deduplicator) (σ : Store) (c : Call) : Prop :=
  (∀ a, ¬σ.DuplicateOf a c.documentId) ∨ ∀ d, σ.getDocument c.documentId = some d →
    ∀ a, w.Candidate σ d c.neighbours a → σ.getDocument a = none

theorem Processed.star (h : w.Processed σ c (Centre σ) τ) (hs : σ.Star) (hk : w.KeepsStar σ c) :
    τ.Star := by
  cases h
  case unchanged hd => simpa only [Store.Star, Store.DuplicateOf, hd] using hs
  case written d hit hf hh hd =>
    have hi : d.id = c.documentId := Table.get?_key hf
    have hτ {a b : DocumentId} : τ.DuplicateOf a b ↔
        if a = d.id then (hit.map (·.canonicalObjectId)) = some b else σ.DuplicateOf a b :=
      Store.duplicateOf_put hd
    intro a b hab k hbk
    cases hit
    case none =>
      have hσ {a b : DocumentId} (h : τ.DuplicateOf a b) : σ.DuplicateOf a b := by
        have h := hτ.mp h
        split_ifs at h
        · cases h
        · exact h
      exact hs a b (hσ hab) k (hσ hbk)
    case some h =>
      rw [hτ] at hab hbk
      have ⟨e, hc, he⟩ := hh.right h rfl
      obtain hk | hk := hk
      case inr => exact absurd he.found <| by simp [hk d hf e hc]
      case inl =>
        have hne : h.canonicalObjectId ≠ d.id := by
          intro hd
          obtain rfl | hp := he.path
          case inr => exact hk e <| hi ▸ hd ▸ hp
          case inl =>
            obtain hl | ⟨s, m, hl⟩ := hc.lt_or_semantic
            case inl => exact hl.ne hd
            case inr => exact detect_ne hl hd
        split_ifs at hab with ha
        case pos =>
          obtain rfl : h.canonicalObjectId = b := by simpa using hab
          rw [if_neg hne] at hbk
          exact he.stops k hbk
        case neg =>
          have hb : b ≠ d.id := fun hb => hk a <| hi ▸ hb ▸ hab
          rw [if_neg hb] at hbk
          exact hs a b hab k hbk

def NotTooDeep (w : Deduplicator) (σ : Store) (c : Call) : Prop :=
  ∀ id max, ((w.dedupDocument c).run σ).fst ≠ .error (.duplicateChainTooDeep id max)

theorem step_star (hs : σ.Star) (hk : w.KeepsStar σ c) : (w.step σ c).Star ∧ w.NotTooDeep σ c := by
  have h := dedupDocument_ensures (w := w) (c := c) <| resolves_centre hs
  constructor
  case left => exact h.mono (fun _ _ h => h) (fun _ _ h => h.left) |>.exec |>.star hs hk
  case right =>
    intro id max he
    obtain ⟨_, he⟩ | he := (h.error he).right
    case inl => cases he
    case inr => exact he

-- The duplicates of a canonical document form a star for as long as no document which has duplicates
-- becomes one itself.
theorem run_star {calls : List Call} (hs : σ.Star) (hk : calls.Along w.step w.KeepsStar σ) :
    (∀ earlier, earlier <+: calls → (w.run σ earlier).Star) ∧ calls.Along w.step w.NotTooDeep σ := by
  constructor
  case left => exact fun _ hp => (hk.take hp).foldl hs fun _ _ hs hk => (step_star hs hk).left
  case right => exact (hk.invariant hs fun _ _ hs hk => step_star hs hk).right

end Deduplicator

namespace Sample

-- The documents `2` and `3` have the same contents, `1` and `2` the same URL.
def starNotes : Store := .mk
  { documents := ⟨[{ note 1 "a" with sourceUrl := some "u", canonicalUrl := some "u" },
      { note 2 "b" with sourceUrl := some "u", canonicalUrl := some "u" }, note 3 "b"],
      by decide⟩ }

end Sample

namespace Deduplicator

def starCall (id : DocumentId) : Call where
  documentId := id
  now        := id
  claimId    := 40 + id
  neighbours := none

theorem starNotes_keepsStar :
    [starCall 2, starCall 3].Along Sample.deduplicator.step Sample.deduplicator.KeepsStar
      Sample.starNotes := by
  have h₂ : ∀ d ∈ Sample.starNotes.documents.rows, d.duplicateOf ≠ some 2 := by decide
  have h₃ : ∀ d ∈ (Sample.deduplicator.step Sample.starNotes (starCall 2)).documents.rows,
      d.duplicateOf ≠ some 3 := by decide +kernel
  refine ⟨.inl ?_, .inl ?_, trivial⟩
  case refine_1 =>
    rintro a ⟨d, hd, _, hc⟩
    exact h₂ d hd hc
  case refine_2 =>
    rintro a ⟨d, hd, _, hc⟩
    exact h₃ d hd hc

theorem run_star_starNotes :
    (∀ earlier, earlier <+: [starCall 2, starCall 3] →
      (Sample.deduplicator.run Sample.starNotes earlier).Star) ∧
    [starCall 2, starCall 3].Along Sample.deduplicator.step Sample.deduplicator.NotTooDeep
      Sample.starNotes :=
  run_star (.of_none <| by decide) starNotes_keepsStar

-- The documents are processed in the order opposite to their age.
theorem not_run_star : ¬∀ (w : Deduplicator) (σ : Store) (calls : List Call),
    (∀ d ∈ σ.documents, d.duplicateOf = none) →
    (calls.map (·.documentId)).Perm (σ.documents.rows.map (·.id)) → (w.run σ calls).Star := by
  intro h
  have hs := h Sample.deduplicator Sample.starNotes [starCall 3, starCall 2, starCall 1] (by decide)
    (by decide)
  have hd : ∀ p : DocumentId × DocumentId, p ∈ [(3, 2), (2, 1)] →
      ∃ d ∈ (Sample.deduplicator.run Sample.starNotes [starCall 3, starCall 2, starCall 1]).documents.rows,
        d.id = p.fst ∧ d.duplicateOf = some p.snd := by decide +kernel
  exact hs 3 2 (hd (3, 2) <| by simp) 1 (hd (2, 1) <| by simp)

end Deduplicator
