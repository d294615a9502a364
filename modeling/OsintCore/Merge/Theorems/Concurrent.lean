import OsintCore.Control.Graph
import OsintCore.Merge.Concurrent
import OsintCore.Merge.Theorems.Execute

open Except (bind_eq_ok)
open Relation (Acyclic ReflTransGen TransGen)

-- A history of a merge of `a` into `b` which has not been undone.
def MergeHistory.Records (h : MergeHistory) (a b : EntityId) : Prop :=
  h.undoneAt = none ∧ h.mergedId = a ∧ h.survivorId = b

namespace Merge

-- The column `merged_into` and the histories tell the same, and no entity is merged into itself.
structure Consistent (σ : Store) : Prop where
  acyclic  : Acyclic (MergedInto σ)
  recorded : ∀ a b, MergedInto σ a b → ∃! h, h ∈ σ.mergeHistory ∧ h.Records a b
  merged   : ∀ h ∈ σ.mergeHistory, ∀ a b, h.Records a b → MergedInto σ a b

-- What `executeMerge` checks before its transaction, as far as it matters, and at the time of it.
def Clean (σ : Store) (survivorId mergedId : EntityId) : Prop :=
  (∀ b, ¬MergedInto σ mergedId b) ∧ ¬ReflTransGen (MergedInto σ) survivorId mergedId

section Commit

variable {σ σ' : Store} {survivor merged : Entity} {ctx : Context} {h : MergeHistory}
  (he : Executed σ σ' survivor merged ctx h)
include he

theorem Executed.records {a b : EntityId} :
    h.Records a b ↔ a = merged.id ∧ b = survivor.id := by
  simp [MergeHistory.Records, he.undoneAt, he.mergedId, he.survivorId, eq_comm]

theorem Executed.mem_mergeHistory (hf : σ.mergeHistory.get? ctx.id = none) {h' : MergeHistory} :
    h' ∈ σ'.mergeHistory ↔ h' = h ∨ h' ∈ σ.mergeHistory := by
  rw [he.mergeHistory, Table.mem_put]
  refine or_congr_right <| and_iff_left_of_imp fun hm hi => ?_
  exact Table.get?_eq_none.mp hf h' hm <| hi.trans he.id

theorem Executed.consistent (hf : σ.mergeHistory.get? ctx.id = none) (hσ : Consistent σ)
    (hc : Clean σ survivor.id merged.id) : Consistent σ' where
  acyclic := hσ.acyclic.of_edge (m := merged.id) (s := survivor.id) (fun a b hab => by
    rw [he.mergedInto] at hab
    split_ifs at hab with ha
    · exact .inr ⟨ha, hab⟩
    · exact .inl hab) hc.right
  recorded a b hab := by
    rw [he.mergedInto] at hab
    simp only [he.mem_mergeHistory hf]
    split_ifs at hab with ha
    case pos =>
      refine ⟨h, ⟨.inl rfl, he.records.mpr ⟨ha, hab⟩⟩, fun h' ⟨hm, hr⟩ => ?_⟩
      exact hm.resolve_right fun hm => hc.left b <| ha ▸ hσ.merged h' hm a b hr
    case neg =>
      have ⟨h', ⟨hm, hr⟩, hu⟩ := hσ.recorded a b hab
      refine ⟨h', ⟨.inr hm, hr⟩, fun h'' ⟨hm, hr⟩ => ?_⟩
      obtain rfl | hm := hm
      · exact absurd (he.records.mp hr).left ha
      · exact hu h'' ⟨hm, hr⟩
  merged h' hm a b hr := by
    rw [he.mergedInto]
    obtain rfl | hm := he.mem_mergeHistory hf |>.mp hm
    case inl =>
      have ⟨ha, hb⟩ := he.records.mp hr
      rwa [if_pos ha]
    case inr =>
      have hab := hσ.merged h' hm a b hr
      have ha : a ≠ merged.id := fun ha => hc.left b (ha ▸ hab)
      rwa [if_neg ha]

theorem Executed.clean (hf : σ.mergeHistory.get? ctx.id = none) (hσ : Consistent σ)
    (hσ' : Consistent σ') : Clean σ survivor.id merged.id := by
  have hm : MergedInto σ' merged.id survivor.id := he.mergedInto.mpr <| if_pos rfl ▸ rfl
  have hn : ∀ b, ¬MergedInto σ merged.id b := by
    intro b hb
    -- The history of the earlier merge is there still.
    have ⟨h', ⟨hm', hr⟩, _⟩ := hσ.recorded _ _ hb
    have hb' := hσ'.merged h' (he.mem_mergeHistory hf |>.mpr <| .inr hm') _ _ hr
    rw [he.mergedInto, if_pos rfl] at hb'
    have hu : h' = h := (hσ'.recorded _ _ hm).unique
      ⟨he.mem_mergeHistory hf |>.mpr <| .inr hm', hb' ▸ hr⟩
      ⟨he.mem_mergeHistory hf |>.mpr <| .inl rfl, he.records.mpr ⟨rfl, rfl⟩⟩
    exact Table.get?_eq_none.mp hf h' hm' <| hu ▸ he.id
  refine ⟨hn, fun hs => hσ'.acyclic merged.id <| .head' hm ?_⟩
  refine ReflTransGen.mono (fun a b hab => he.mergedInto.mpr ?_) _ _ hs
  have ha : a ≠ merged.id := fun ha => hn b (ha ▸ hab)
  rwa [if_neg ha]

end Commit

-- What the next step of a call does.
inductive Call.Advances (c : Call) (db : Store) : State → Store → State → Prop
  | survivor {e : Entity} (read : c.readSurvivor db = .ok e) : Advances c db .start db (.survivor e)
  | ready {e m : Entity} (read : c.readMerged db e = .ok m) :
    Advances c db (.survivor e) db (.ready e m)
  | commit {e m : Entity} {db' : Store} {h : MergeHistory} {changes : List RelationshipChange}
    (execute : executeInTx db e m c.ctx = .ok (db', h, changes)) :
    Advances c db (.ready e m) db' (.done h)
  | fail {s : State} {e : MergeError} (running : ∀ h, s ≠ .done h)
    (rollback : ∀ e m, s = .ready e m → ¬(executeInTx db e m c.ctx).isOk) :
    Advances c db s db (.failed e)
  | done {h : MergeHistory} : Advances c db (.done h) db (.done h)

theorem Call.readSurvivor_ok {c : Call} {db : Store} {e : Entity} (h : c.readSurvivor db = .ok e) :
    c.mergedId ≠ c.survivorId ∧ e.id = c.survivorId := by
  unfold readSurvivor at h
  split_ifs at h with hi
  · simp at h
  · exact ⟨Ne.symm hi, Table.get?_key <| orThrow_eq_ok.mp h⟩

theorem Call.readMerged_ok {c : Call} {db : Store} {e m : Entity} (h : c.readMerged db e = .ok m) :
    m.id = c.mergedId := by
  simp only [readMerged, requireEntity, bind_eq_ok, orThrow_eq_ok, Except.pure_eq_ok] at h
  obtain ⟨m', hm, _, _, rfl⟩ := h
  exact Table.get?_key hm

theorem Call.advance_advances {c : Call} {db : Store} {s : State} :
    c.Advances db s (c.advance db s).fst (c.advance db s).snd := by
  cases s
  case start =>
    simp only [advance]
    split
    case h_1 h => exact .survivor h
    case h_2   => exact .fail nofun fun _ _ h => by cases h
  case survivor e =>
    simp only [advance]
    split
    case h_1 h => exact .ready h
    case h_2   => exact .fail nofun fun _ _ h => by cases h
  case ready e m =>
    simp only [advance]
    split
    case h_1 h => exact .commit h
    case h_2 h => exact .fail nofun fun _ _ hs => by cases hs; simp [h, Except.isOk, Except.toBool]
  case done   => exact .done
  case failed => exact .fail nofun fun _ _ h => by cases h

-- A call which is not interrupted is `executeMergeWithAudit`.
theorem System.run_alone {c : Call} {σ : Store} :
    run (fun _ : Unit => c) σ [(), (), ()] =
      match executeMergeWithAudit σ c.survivorId c.mergedId c.ctx with
      | .ok (db, h, _) => { db, states := fun _ => .done h }
      | .error e       => { db := σ, states := fun _ => .failed e } := by
  have hf {x y : Call.State} : Function.update (fun _ : Unit => x) () y = fun _ => y := by
    funext; rfl
  simp only [run, init, List.foldl_cons, List.foldl_nil, step, executeMergeWithAudit, Call.advance,
    Call.readSurvivor, Call.readMerged, bind, Except.bind, pure, Except.pure]
  by_cases hi : c.survivorId = c.mergedId
  case pos => simp [hi, hf]
  case neg =>
    cases hs : requireEntity σ c.survivorId
    case error => simp [hi, hf]
    case ok survivor =>
      cases hm : requireEntity σ c.mergedId
      case error => simp [hi, hm, hf]
      case ok merged =>
        cases hc : checkEntities survivor merged
        case error => simp [hi, hm, hc, hf]
        case ok    => cases hx : executeInTx σ survivor merged c.ctx <;> simp [hi, hm, hc, hx, hf]

namespace System

variable {ι : Type} [DecidableEq ι] {calls : ι → Call} {s : System ι} {i : ι} {σ : Store}

-- The rows which a call holds are the ones it has asked for, and its history is not there before its
-- transaction has been committed.
structure Valid (calls : ι → Call) (s : System ι) : Prop where
  survivor : ∀ i e, s.states i = .survivor e →
    (calls i).mergedId ≠ (calls i).survivorId ∧ e.id = (calls i).survivorId
  ready : ∀ i e m, s.states i = .ready e m →
    (calls i).mergedId ≠ (calls i).survivorId ∧ e.id = (calls i).survivorId ∧ m.id = (calls i).mergedId
  fresh : ∀ i, (∀ h, s.states i ≠ .done h) → s.db.mergeHistory.get? (calls i).ctx.id = none

-- The next step of the call is a transaction which will be committed.
def Commits (calls : ι → Call) (s : System ι) (i : ι) : Prop :=
  ∃ survivor merged, s.states i = .ready survivor merged ∧
    (executeInTx s.db survivor merged (calls i).ctx).isOk

theorem step_advances (calls : ι → Call) (s : System ι) (i : ι) :
    (calls i).Advances s.db (s.states i) (s.step calls i).db ((s.step calls i).states i) := by
  simpa [step] using (calls i).advance_advances

-- A step either commits a transaction or leaves the store as it is.
theorem Valid.step_cases (hv : Valid calls s) (i : ι) :
    (¬Commits calls s i ∧ (s.step calls i).db = s.db) ∨
    ∃ survivor merged h, Commits calls s i ∧ survivor.id = (calls i).survivorId ∧
      merged.id = (calls i).mergedId ∧
      Executed s.db (s.step calls i).db survivor merged (calls i).ctx h := by
  have ha := step_advances calls s i
  have ht : ∀ e m, s.states i = .ready e m → (calls i).mergedId ≠ (calls i).survivorId ∧
      e.id = (calls i).survivorId ∧ m.id = (calls i).mergedId := hv.ready i
  unfold Commits
  generalize s.states i = x, (s.step calls i).db = db, (s.step calls i).states i = x' at ha ht
  cases ha
  case survivor => exact .inl ⟨by simp, rfl⟩
  case ready    => exact .inl ⟨by simp, rfl⟩
  case done     => exact .inl ⟨by simp, rfl⟩
  case fail _ _ h => exact .inl ⟨fun ⟨e, m, hx, ho⟩ => h e m hx ho, rfl⟩
  case commit e m h changes hx =>
    have ⟨hne, he, hm⟩ := ht e m rfl
    refine .inr ⟨e, m, h, ⟨e, m, rfl, by simp [hx, Except.isOk, Except.toBool]⟩, he, hm, ?_⟩
    exact executeInTx_executed (by rwa [he, hm]) hx

theorem Valid.step (hv : Valid calls s) (hn : (fun i => (calls i).ctx.id).Injective) :
    Valid calls (s.step calls i) := by
  have ha := step_advances calls s i
  have hs : ∀ j, j ≠ i → (s.step calls i).states j = s.states j := fun j hj => by
    simp [System.step, hj]
  constructor
  case survivor =>
    intro j e hj
    by_cases hi : j = i
    case neg => exact hv.survivor j e <| hs j hi ▸ hj
    subst hi
    generalize s.states j = x, (s.step calls j).db = db at ha
    rw [hj] at ha
    cases ha with
    | survivor read => exact (calls j).readSurvivor_ok read
  case ready =>
    intro j e m hj
    by_cases hi : j = i
    case neg => exact hv.ready j e m <| hs j hi ▸ hj
    subst hi
    have ht := hv.survivor j
    generalize s.states j = x, (s.step calls j).db = db at ha ht
    rw [hj] at ha
    cases ha with
    | ready read =>
      have ⟨hne, he⟩ := ht e rfl
      exact ⟨hne, he, (calls j).readMerged_ok read⟩
  case fresh =>
    intro j hj
    obtain ⟨hc, hd⟩ | ⟨survivor, merged, h, hc, -, -, he⟩ := hv.step_cases i
    case inl =>
      rw [hd]
      refine hv.fresh j fun h hx => ?_
      by_cases hi : j = i
      case neg => exact hj h <| (hs j hi).trans hx
      subst hi
      rw [hx] at ha
      generalize (s.step calls j).db = db, (s.step calls j).states j = x' at ha hj
      cases ha
      case fail hr _ => exact hr h rfl
      case done      => exact hj h rfl
    case inr =>
      by_cases hi : j = i
      case pos =>
        subst hi
        have ⟨e, m, hx, ho⟩ := hc
        rw [hx] at ha
        generalize (s.step calls j).db = db, (s.step calls j).states j = x' at ha hj
        cases ha
        case commit  => exact absurd rfl (hj _)
        case fail hr => exact absurd ho (hr e m rfl)
      case neg =>
        rw [he.mergeHistory, Table.get?_put, if_neg]
        · exact hv.fresh j fun h hx => hj h <| (hs j hi).trans hx
        · exact fun h => hi (hn (he.id.symm.trans h)).symm

theorem run_append_singleton {l : List ι} :
    run calls σ (l ++ [i]) = (run calls σ l).step calls i := by
  simp [run]

theorem valid_run (hf : ∀ i, σ.mergeHistory.get? (calls i).ctx.id = none)
    (hn : (fun i => (calls i).ctx.id).Injective) {l : List ι} : Valid calls (run calls σ l) := by
  refine List.foldl_invariant (P := Valid calls) ?_ fun s i _ hv => hv.step hn
  exact {
    survivor := fun _ _ h => by cases h
    ready    := fun _ _ _ h => by cases h
    fresh    := fun i _ => hf i }

-- Starting from a consistent store, the store stays consistent for as long as each transaction which
-- commits finds its merged entity not merged, and its survivor not merged into that entity. It is
-- not enough that this was so when the call made its checks.
theorem run_consistent (hσ : Consistent σ) (hf : ∀ i, σ.mergeHistory.get? (calls i).ctx.id = none)
    (hn : (fun i => (calls i).ctx.id).Injective) (schedule : List ι) :
    (∀ l, l <+: schedule → Consistent (run calls σ l).db) ↔
      ∀ l i, l ++ [i] <+: schedule → Commits calls (run calls σ l) i →
        Clean (run calls σ l).db (calls i).survivorId (calls i).mergedId := by
  have hv := fun l : List ι => valid_run hf hn (l := l)
  constructor
  case mp =>
    intro h l i hl hc
    have h₁ := h l <| (List.prefix_append l [i]).trans hl
    have h₂ := h (l ++ [i]) hl
    rw [run_append_singleton] at h₂
    obtain ⟨hn, _⟩ | ⟨survivor, merged, hist, ⟨e, m, hx, _⟩, hs, hm, he⟩ := (hv l).step_cases i
    case inl => exact absurd hc hn
    case inr =>
      refine hs ▸ hm ▸ he.clean ((hv l).fresh i ?_) h₁ h₂
      simp [hx]
  case mpr =>
    intro h l hl
    induction l using List.reverseRecOn
    case nil => exact hσ
    case append_singleton l i hi =>
      have h₁ := hi <| (List.prefix_append l [i]).trans hl
      rw [run_append_singleton]
      obtain ⟨_, hd⟩ | ⟨survivor, merged, hist, hc, hs, hm, he⟩ := (hv l).step_cases i
      case inl => rwa [hd]
      case inr =>
        have hc' := h l i hl hc
        have ⟨e, m, hx, _⟩ := hc
        refine he.consistent ((hv l).fresh i ?_) h₁ (hs ▸ hm ▸ hc')
        simp [hx]

end System

theorem Consistent.of_unmerged {σ : Store} (he : ∀ e ∈ σ.entities, e.mergedInto = none)
    (hh : ∀ h ∈ σ.mergeHistory, h.undoneAt ≠ none) : Consistent σ := by
  have hn : ∀ a b, ¬MergedInto σ a b := fun a b ⟨e, hg, hm⟩ => by
    simp [he e (Table.get?_mem hg)] at hm
  exact {
    acyclic  := fun a ha => have ⟨b, hb, _⟩ := TransGen.tail'_iff.mp ha; hn _ _ ‹_›
    recorded := fun a b h => absurd h (hn a b)
    merged   := fun h hm _ _ hr => absurd hr.left (hh h hm) }

-- Two calls which merge two entities into each other.

def crossSample : Store := .mk
  { entities := ⟨[Sample.person 1 "a", Sample.person 2 "b"], by decide⟩ }

def crossCalls (b : Bool) : Call where
  survivorId := if b then 1 else 2
  mergedId   := if b then 2 else 1
  ctx        := { reason := "", operator := "", audit := none, id := if b then 31 else 32, now := 7 }

-- Both calls make their checks before either of them runs its transaction.
def crossSchedule : List Bool :=
  [true, true, false, false, true, false]

theorem crossSample_consistent : Consistent crossSample :=
  .of_unmerged (by decide) (by decide)

theorem run_consistent_cross :
    (∀ l, l <+: crossSchedule → Consistent (System.run crossCalls crossSample l).db) ↔
      ∀ l i, l ++ [i] <+: crossSchedule → System.Commits crossCalls (System.run crossCalls crossSample l) i →
        Clean (System.run crossCalls crossSample l).db (crossCalls i).survivorId (crossCalls i).mergedId :=
  System.run_consistent crossSample_consistent (by decide) (by decide) crossSchedule

theorem not_run_consistent : ¬∀ (σ : Store) (calls : Bool → Call) (schedule : List Bool),
    Consistent σ → (∀ i, σ.mergeHistory.get? (calls i).ctx.id = none) →
    (fun i => (calls i).ctx.id).Injective → Consistent (System.run calls σ schedule).db := by
  intro h
  have hc := h crossSample crossCalls crossSchedule crossSample_consistent (by decide) (by decide)
  have h₁ : MergedInto (System.run crossCalls crossSample crossSchedule).db 1 2 := by
    decide
  have h₂ : MergedInto (System.run crossCalls crossSample crossSchedule).db 2 1 := by
    decide
  exact hc.acyclic 1 <| .head h₁ <| .single h₂

end Merge
