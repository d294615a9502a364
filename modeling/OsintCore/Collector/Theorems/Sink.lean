import OsintCore.Api.Theorems.Pagination
import OsintCore.Collector.Sink

open Resumption

theorem Uuid.toText_injOn {i j : Uuid} (hi : i < 2 ^ 128) (hj : j < 2 ^ 128)
    (h : toText i = toText j) : i = j := by
  have hp := parseStr_toText hi
  rw [h, parseStr_toText hj] at hp
  exact (Option.some.inj hp).symm

namespace Sink

variable {lib : SinkLib} {s : State} {c : Call} {e : NewRawEvidence} {r : RawEvidence}

-- The path ends with the identifier.
theorem id_of_storagePath {s₁ s₂ : SourceId} {t₁ t₂ : Timestamp} {i j : RawEvidenceId}
    (hi : i < 2 ^ 128) (hj : j < 2 ^ 128) (h : storagePath lib s₁ t₁ i = storagePath lib s₂ t₂ j) :
    i = j := by
  have hl (k : Uuid) : (Uuid.toText k).toList.length = 36 := by simp [Uuid.toText]
  simp only [storagePath, ← String.toList_inj, String.toList_append] at h
  exact Uuid.toText_injOn hi hj <| String.toList_inj.mp <|
    List.append_inj_right' h <| (hl i).trans (hl j).symm

-- The bucket has the body of the row.
def HasBody (lib : SinkLib) (s : State) (r : RawEvidence) : Prop :=
  ∃ body, s.objects r.storagePath = some body ∧ lib.sha256Hex body = r.sha256 ∧
    r.contentLength = some (body.length : Int)

-- The rows are stored under the paths which the sink gives them, and none has lost its body.
structure Kept (lib : SinkLib) (s : State) : Prop where
  ids    : ∀ r ∈ s.rawEvidence, r.id < 2 ^ 128
  paths  : ∀ r ∈ s.rawEvidence, r.storagePath = storagePath lib r.sourceId r.retrievedAt r.id
  bodies : ∀ r ∈ s.rawEvidence, HasBody lib s r

theorem Kept.empty : Kept lib {} where
  ids _ h    := absurd h Table.not_mem_empty
  paths _ h  := absurd h Table.not_mem_empty
  bodies _ h := absurd h Table.not_mem_empty

-- An identifier which no row has yet.
structure Fresh (s : State) (id : RawEvidenceId) : Prop where
  lt     : id < 2 ^ 128
  unused : s.rawEvidence.get? id = none

theorem Kept.path_ne (h : Kept lib s) (hf : Fresh s c.id) :
    ∀ r ∈ s.rawEvidence, r.storagePath ≠ storagePath lib e.sourceId e.retrievedAt c.id := by
  intro r hr he
  rw [h.paths r hr] at he
  exact Table.get?_eq_none.mp hf.unused r hr <| id_of_storagePath (h.ids r hr) hf.lt he

-- What stands under the path of a row that is not there yet makes no difference.
theorem Kept.updateObject {body : Option Body} (h : Kept lib s) (hf : Fresh s c.id) :
    Kept lib ⟨s.rawEvidence, s.rawEvidenceCollections,
      Function.update s.objects (storagePath lib e.sourceId e.retrievedAt c.id) body⟩ where
  ids    := h.ids
  paths  := h.paths
  bodies := fun r hr => by
    have ⟨body, hb, hs⟩ := h.bodies r hr
    exact ⟨body, (Function.update_of_ne (h.path_ne hf r hr) _ _).trans hb, hs⟩

theorem hasBody_record {s : State}
    (h : s.objects (storagePath lib e.sourceId e.retrievedAt c.id) = some e.body) :
    HasBody lib s (e.record lib c.id) := by
  refine ⟨e.body, h, rfl, ?_⟩
  have hl := e.body_length
  simp only [NewRawEvidence.record, Option.some.injEq]
  omega

theorem insertRawEvidence_of_fresh (hf : s.rawEvidence.get? r.id = none) (ids : List CollectionId) :
    ∃ s', s.insertRawEvidence r ids = some s' ∧ s'.objects = s.objects ∧
      s'.rawEvidence = s.rawEvidence.put r := by
  simp [State.insertRawEvidence, hf]

theorem Kept.insert {s' : State} (h : Kept lib s) (hf : Fresh s c.id)
    (ho : s.objects (storagePath lib e.sourceId e.retrievedAt c.id) = some e.body)
    (hs : s'.objects = s.objects) (hr : s'.rawEvidence = s.rawEvidence.put (e.record lib c.id)) :
    Kept lib s' := by
  have hm (r : RawEvidence) (hm : r ∈ s'.rawEvidence) :
      r = e.record lib c.id ∨ r ∈ s.rawEvidence := by
    rw [hr] at hm
    exact (Table.mem_put.mp hm).imp_right And.left
  constructor
  case ids =>
    intro r hr
    obtain rfl | hr := hm r hr
    · exact hf.lt
    · exact h.ids r hr
  case paths =>
    intro r hr
    obtain rfl | hr := hm r hr
    · rfl
    · exact h.paths r hr
  case bodies =>
    intro r hr
    unfold HasBody
    rw [hs]
    obtain rfl | hr := hm r hr
    · exact hasBody_record ho
    · exact h.bodies r hr

theorem ensures_call {r : Reply} {f : State → Option State} {Q : Bool → State → Prop}
    {E : Failure → State → Prop} : (r.call f).Ensures s Q E ↔
      match r with
      | .answered  => Q (f s).isSome ((f s).getD s)
      | .failed    => Q false s
      | .lost      => Q false ((f s).getD s)
      | .crashed b => E .crash (if b then (f s).getD s else s) := by
  cases r <;> rfl

-- The row is written although the database reports a failure, and then its object is deleted.
def Call.Loses (c : Call) : Prop :=
  c.put = .answered ∧ c.insert = .lost ∧ c.delete.carriedOut

instance : Decidable c.Loses :=
  inferInstanceAs (Decidable (_ ∧ _))

-- The rows with other identifiers are the same.
def Frame (s s' : State) (id : RawEvidenceId) : Prop :=
  ∀ i, i ≠ id → s'.rawEvidence.get? i = s.rawEvidence.get? i

theorem Frame.of_put {s' : State} (h : s'.rawEvidence = s.rawEvidence.put r) : Frame s s' r.id := by
  intro i hi
  rw [h, Table.get?_put, RawEvidence.key_eq, if_neg (Ne.symm hi)]

theorem persist_keeps (h : Kept lib s) (hf : Fresh s c.id) (hl : ¬c.Loses) :
    (persist lib c e).Ensures s
      (fun r s' => (Kept lib s' ∧ Frame s s' c.id) ∧ r ∈ s'.rawEvidence)
      fun _ s' => Kept lib s' ∧ Frame s s' c.id := by
  have hp : Kept lib (s.putObject (storagePath lib e.sourceId e.retrievedAt c.id) e.body) :=
    h.updateObject hf
  have hs : Kept lib s ∧ Frame s s c.id := ⟨h, fun _ _ => rfl⟩
  unfold persist
  rw [ensures_bind, ensures_call]
  cases hput : c.put
  case failed    => exact hs
  case lost      => exact ⟨hp, fun _ _ => rfl⟩
  case crashed b => cases b <;> first | exact hs | exact ⟨hp, fun _ _ => rfl⟩
  case answered  =>
    have ho : (s.putObject (storagePath lib e.sourceId e.retrievedAt c.id) e.body).objects
        (storagePath lib e.sourceId e.retrievedAt c.id) = some e.body := by simp [State.putObject]
    have hf' : Fresh (s.putObject (storagePath lib e.sourceId e.retrievedAt c.id) e.body) c.id :=
      ⟨hf.lt, hf.unused⟩
    have ⟨t, ht, hob, hr⟩ := insertRawEvidence_of_fresh (r := e.record lib c.id) hf'.unused e.collectionIds
    have hk : Kept lib t ∧ Frame s t c.id :=
      ⟨hp.insert hf' ho hob hr, Frame.of_put (r := e.record lib c.id) hr⟩
    have hd : Kept lib ((s.putObject (storagePath lib e.sourceId e.retrievedAt c.id) e.body).deleteObject
        (storagePath lib e.sourceId e.retrievedAt c.id)) := hp.updateObject hf'
    simp only [Option.isSome_some, Option.getD_some, not_true, if_false]
    rw [ensures_bind, ensures_call, ht]
    cases hins : c.insert
    case answered  => exact ⟨hk, hr ▸ Table.mem_put_self _ _⟩
    case crashed b => cases b <;> first | exact hk | exact ⟨hp, fun _ _ => rfl⟩
    case failed    =>
      simp only [if_neg Bool.false_ne_true, ensures_bind, ensures_call, ensures_fail]
      cases c.delete
      case failed    => exact ⟨hp, fun _ _ => rfl⟩
      case answered  => exact ⟨hd, fun _ _ => rfl⟩
      case lost      => exact ⟨hd, fun _ _ => rfl⟩
      case crashed b => cases b <;> first | exact ⟨hp, fun _ _ => rfl⟩ | exact ⟨hd, fun _ _ => rfl⟩
    case lost      =>
      simp only [if_neg Bool.false_ne_true, ensures_bind, ensures_call, ensures_fail]
      have hl : c.delete.carriedOut = false := by simpa [Call.Loses, hput, hins] using hl
      cases hdel : c.delete
      case failed    => exact hk
      case answered  => simp [hdel, Reply.carriedOut] at hl
      case lost      => simp [hdel, Reply.carriedOut] at hl
      case crashed b =>
        obtain rfl : b = false := by simpa [hdel, Reply.carriedOut] using hl
        exact hk

variable (lib e) in
theorem persist_loses (hf : Fresh s c.id) (hl : c.Loses) :
    ∃ r ∈ ((persist lib c e).exec s).rawEvidence,
      ((persist lib c e).exec s).objects r.storagePath = none := by
  have ⟨hp, hi, hd⟩ := hl
  have ⟨t, ht, _, hr⟩ := insertRawEvidence_of_fresh (r := e.record lib c.id)
    (s := s.putObject (storagePath lib e.sourceId e.retrievedAt c.id) e.body) hf.unused
    e.collectionIds
  have he : (persist lib c e).exec s = t.deleteObject (e.record lib c.id).storagePath := by
    refine Ensures.exec (P := (· = t.deleteObject (e.record lib c.id).storagePath)) ?_
    unfold persist
    rw [ensures_bind, ensures_call, hp]
    simp only [Option.isSome_some, Option.getD_some, not_true, if_false]
    rw [ensures_bind, ensures_call, hi, ht]
    simp only [if_neg Bool.false_ne_true, ensures_bind, ensures_call, ensures_fail]
    cases hdel : c.delete
    case answered  => rfl
    case lost      => rfl
    case failed    => simp [hdel, Reply.carriedOut] at hd
    case crashed b =>
      obtain rfl : b = true := by simpa [hdel, Reply.carriedOut] using hd
      rfl
  rw [he]
  exact ⟨_, hr ▸ Table.mem_put_self _ _, by simp [State.deleteObject]⟩

-- In each state which the calls reach all rows have their bodies, and so does what a call returns.
def Durable (lib : SinkLib) : State → List (Call × NewRawEvidence) → Prop
  | s, []              => ∀ r ∈ s.rawEvidence, HasBody lib s r
  | s, (c, e) :: calls => (∀ r ∈ s.rawEvidence, HasBody lib s r) ∧
    (∀ r s', (persist lib c e).run s = (.ok r, s') → r ∈ s'.rawEvidence ∧ HasBody lib s' r) ∧
    Durable lib ((persist lib c e).exec s) calls

theorem Durable.head {calls : List (Call × NewRawEvidence)} (h : Durable lib s calls) :
    ∀ r ∈ s.rawEvidence, HasBody lib s r := by
  cases calls
  case nil  => exact h
  case cons => exact h.left

-- The calls make up new identifiers.
structure Unused (s : State) (calls : List (Call × NewRawEvidence)) : Prop where
  fresh : ∀ x ∈ calls, Fresh s x.fst.id
  nodup : (calls.map (·.fst.id)).Nodup

theorem Unused.tail {s' : State} {calls : List (Call × NewRawEvidence)}
    (h : Unused s ((c, e) :: calls)) (hf : Frame s s' c.id) : Unused s' calls where
  fresh x hx := by
    have ⟨hn, _⟩ := List.nodup_cons.mp h.nodup
    have hi : x.fst.id ≠ c.id := fun hi => hn <| List.mem_map.mpr ⟨x, hx, hi⟩
    have hx := h.fresh x (List.mem_cons_of_mem _ hx)
    exact ⟨hx.lt, (hf _ hi).trans hx.unused⟩
  nodup := (List.nodup_cons.mp h.nodup).right

theorem run_durable_iff (lib : SinkLib) {start : State} (hs : Kept lib start)
    (calls : List (Call × NewRawEvidence)) (hu : Unused start calls) :
    Durable lib start calls ↔ ∀ x ∈ calls, ¬x.fst.Loses := by
  induction calls generalizing start
  case nil => simpa [Durable] using hs.bodies
  case cons x calls hi =>
    obtain ⟨c, e⟩ := x
    have hf := hu.fresh _ List.mem_cons_self
    rw [List.forall_mem_cons]
    by_cases hl : c.Loses
    case pos =>
      refine iff_of_false (fun h => ?_) fun h => h.left hl
      have ⟨r, hr, hn⟩ := persist_loses lib e hf hl
      have ⟨_, hb, _⟩ := h.right.right.head r hr
      exact absurd (hn.symm.trans hb) nofun
    case neg =>
      have hp := persist_keeps (e := e) hs hf hl
      have ⟨hk, hm⟩ := (hp.mono (fun _ _ h => h.left) fun _ _ h => h).exec
      rw [← hi hk (hu.tail hm)]
      refine ⟨fun h => ⟨hl, h.right.right⟩, fun h => ⟨hs.bodies, fun r s' hr => ?_, h.right⟩⟩
      unfold Ensures at hp
      rw [hr] at hp
      exact ⟨hp.right, hp.left.left.bodies r hp.right⟩

namespace Sample

def sinkLib : SinkLib where
  sha256Hex body := toString body.length
  date _         := "2026/09/10"

def evidence : NewRawEvidence where
  sourceId         := 1
  connectorId      := 2
  collectionIds    := [3]
  externalId       := none
  sourceUrl        := "http://127.0.0.1/feed"
  retrievedAt      := 0
  contentType      := none
  mimeType         := none
  httpStatus       := some 200
  httpHeaders      := .object []
  metadata         := .object []
  collectorVersion := "collector/0.1"
  body             := [60, 62]

def call (id : RawEvidenceId) (insert : Reply) : Call :=
  { id, put := .answered, insert, delete := .answered }

end Sample

-- One call stores its evidence, and one is refused and cleans up.
theorem run_durable_sample : Durable Sample.sinkLib {}
    [(Sample.call 4 .answered, Sample.evidence), (Sample.call 5 .failed, Sample.evidence)] ↔
      ∀ x ∈ [(Sample.call 4 .answered, Sample.evidence), (Sample.call 5 .failed, Sample.evidence)],
        ¬x.fst.Loses :=
  run_durable_iff _ .empty _ ⟨by
    simp only [List.forall_mem_cons]
    exact ⟨⟨by decide, rfl⟩, ⟨by decide, rfl⟩, List.forall_mem_nil _⟩, by decide⟩

-- The connection breaks after the commit: the row stays, and its object is deleted.
theorem not_run_durable : ¬∀ (lib : SinkLib) (calls : List (Call × NewRawEvidence)),
    Unused {} calls → Durable lib {} calls := by
  intro h
  have hf : Fresh {} (Sample.call 4 .lost).id := ⟨by decide, rfl⟩
  have h := h Sample.sinkLib [(Sample.call 4 .lost, Sample.evidence)]
    ⟨by simpa only [List.forall_mem_singleton] using hf, by decide⟩
  have ⟨r, hr, hn⟩ := persist_loses Sample.sinkLib Sample.evidence hf (by decide)
  have ⟨_, hb, _⟩ := h.right.right r hr
  exact absurd (hn.symm.trans hb) nofun

end Sink
