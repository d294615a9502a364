import OsintCore.Connector.RunState
import OsintCore.Control.Except

namespace Json

variable {name : String} {fields base : List (String × Json)}

theorem lookup_cons {f : String × Json} : (f :: fields).lookup name =
    if name = f.fst then some f.snd else fields.lookup name := by
  have hb : (name == f.fst) = decide (name = f.fst) := rfl
  by_cases he : name = f.fst
  case pos => rw [List.lookup_cons, hb, decide_eq_true he, if_pos he]
  case neg => rw [List.lookup_cons, hb, decide_eq_false he, if_neg he]

theorem lookup_filter_ne {key : String} : (fields.filter (·.fst ≠ key)).lookup name =
    if name = key then none else fields.lookup name := by
  induction fields
  case nil => simp
  case cons f l hi =>
    by_cases hf : f.fst = key
    case pos =>
      rw [List.filter_cons_of_neg (by simp [hf]), hi, lookup_cons]
      split_ifs with hn hk
      case pos => rfl
      case pos => exact (hn (hk.trans hf)).elim
      case neg => rfl
    case neg =>
      rw [List.filter_cons_of_pos (by simp [hf]), lookup_cons, lookup_cons, hi]
      split_ifs with hn hk
      case pos => exact (hf (hn ▸ hk)).elim
      all_goals rfl

theorem lookup_insert {key : String} {value : Json} : (insert fields key value).lookup name =
    if name = key then some value else fields.lookup name := by
  rw [insert, lookup_cons, lookup_filter_ne]
  split_ifs <;> rfl

end Json

variable {name : String} {connectors t t' : Table Connector} {id : ConnectorId}
  {update : ConnectorRunStateUpdate}

theorem get_mergeJsonObjects {base patch : Json} :
    (mergeJsonObjects base patch).get name = (patch.get name <|> base.get name) := by
  have h (fields out : List (String × Json)) :
      (fields.foldr (fun field out => Json.insert out field.fst field.snd) out).lookup name =
        (fields.lookup name <|> out.lookup name) := by
    induction fields
    case nil => rfl
    case cons f l hi =>
      rw [List.foldr_cons, Json.lookup_insert, hi, Json.lookup_cons]
      split_ifs <;> rfl
  cases patch <;> cases base <;> simp [mergeJsonObjects, Json.get, Json.asObject, h]

theorem lookup_patchFields {target fields : List (String × Json)} :
    (patchFields target fields).lookup name =
      match fields.lookup name with
      | none       => target.lookup name
      | some .null => none
      | some value => some (jsonPatch ((target.lookup name).getD .null) value) := by
  induction fields
  case nil => rfl
  case cons f l hi =>
    obtain ⟨key, value⟩ := f
    rw [Json.lookup_cons]
    by_cases hk : name = key
    case pos =>
      rw [if_pos hk, ← hk]
      cases value <;> simp only [patchFields, Json.lookup_filter_ne, Json.lookup_insert, if_pos]
    case neg =>
      rw [if_neg hk]
      cases value <;> simp only [patchFields, Json.lookup_insert, Json.lookup_filter_ne, if_neg hk, hi]

theorem get_jsonPatch {target patch : Json} (hp : patch.asObject.isSome) :
    (jsonPatch target patch).get name =
      match patch.get name with
      | none       => target.get name
      | some .null => none
      | some value => some (jsonPatch ((target.get name).getD .null) value) := by
  cases patch
  case object fields =>
    have h : (patchFields (target.asObject.getD []) fields).lookup name = _ := lookup_patchFields
    cases target <;> simpa [jsonPatch, Json.get, Json.asObject] using h
  all_goals cases hp

namespace Json

-- The value at the end of a path of keys
def valueAt (value : Json) : List String → Option Json
  | []           => some value
  | name :: path => value.get name >>= (·.valueAt path)

-- What SQLite keeps where a patch has the value: nothing for `null`, and an object for an object,
-- whose fields are at the longer paths.
def Kept (found : Option Json) : Json → Prop
  | .null     => found = none
  | .object _ => ∃ fields, found = some (.object fields)
  | value     => found = some value

variable {path : List String} {target patch value : Json}

theorem get_eq_none (h : value.asObject = none) : value.get name = none := by
  rw [Json.get, h]
  rfl

theorem isSome_asObject (h : patch.get name = some value) : patch.asObject.isSome := by
  cases hp : patch.asObject
  case none   => rw [get_eq_none hp] at h; cases h
  case some _ => rfl

theorem jsonPatch_of_asObject (h : patch.asObject = none) : jsonPatch target patch = patch := by
  cases patch
  case object => cases h
  all_goals simp only [jsonPatch]

theorem valueAt_cons (h : value.get name = some patch) :
    value.valueAt (name :: path) = patch.valueAt path := by
  rw [valueAt, h]
  rfl

theorem valueAt_cons_of_none (h : value.get name = none) : value.valueAt (name :: path) = none := by
  rw [valueAt, h]
  rfl

section Get

variable (hv : patch.get name = some value)
include hv

theorem get_jsonPatch_of_ne (hn : value ≠ .null) : (jsonPatch target patch).get name =
    some (jsonPatch ((target.get name).getD .null) value) := by
  rw [get_jsonPatch (isSome_asObject hv), hv]
  cases value
  case null => exact absurd rfl hn
  all_goals rfl

theorem get_jsonPatch_of_eq (hn : value = .null) : (jsonPatch target patch).get name = none := by
  rw [get_jsonPatch (isSome_asObject hv), hv, hn]

end Get

theorem get_jsonPatch_of_none (hp : patch.asObject.isSome) (hv : patch.get name = none) :
    (jsonPatch target patch).get name = target.get name := by
  rw [get_jsonPatch hp, hv]

-- Below a `null` there is nothing.
theorem valueAt_null (hp : path ≠ []) : Json.null.valueAt path = none := by
  cases path
  case nil  => exact absurd rfl hp
  case cons => exact valueAt_cons_of_none rfl

theorem kept_jsonPatch (hn : patch ≠ .null) (h : patch.valueAt path = some value) :
    Kept ((jsonPatch target patch).valueAt path) value := by
  induction path generalizing target patch
  case nil =>
    cases h
    cases value
    case null   => exact absurd rfl hn
    case object => exact ⟨_, by rw [jsonPatch]; rfl⟩
    all_goals rw [jsonPatch_of_asObject rfl]; rfl
  case cons name path hi =>
    cases hv : patch.get name
    case none => rw [valueAt_cons_of_none hv] at h; cases h
    case some field =>
      rw [valueAt_cons hv] at h
      by_cases hf : field = .null
      case neg => exact valueAt_cons (get_jsonPatch_of_ne hv hf) ▸ hi hf h
      case pos =>
        cases path
        case nil =>
          cases h
          rw [hf]
          exact valueAt_cons_of_none (get_jsonPatch_of_eq hv hf)
        case cons => rw [hf, valueAt_null (List.cons_ne_nil _ _)] at h; cases h

theorem valueAt_jsonPatch_of_scalar (hv : patch.get name = some value) (ho : value.asObject = none)
    (h : value.valueAt path = none) : (jsonPatch target patch).valueAt (name :: path) = none := by
  by_cases hn : value = .null
  case pos => exact valueAt_cons_of_none (get_jsonPatch_of_eq hv hn)
  case neg =>
    rw [valueAt_cons (get_jsonPatch_of_ne hv hn), jsonPatch_of_asObject ho]
    exact h

-- A path which the patch does not have leads to what has been there, or to nothing.
theorem valueAt_jsonPatch (h : patch.valueAt path = none) :
    (jsonPatch target patch).valueAt path = none ∨
      (jsonPatch target patch).valueAt path = target.valueAt path := by
  induction path generalizing target patch
  case nil => cases h
  case cons name path hi =>
    cases hp : patch.asObject
    case none => exact .inl ((congrArg (valueAt · _) (jsonPatch_of_asObject hp)).trans h)
    case some fields =>
      cases hv : patch.get name
      case none =>
        have hg : (jsonPatch target patch).get name = target.get name :=
          get_jsonPatch_of_none (Option.isSome_of_mem hp) hv
        exact .inr (by rw [valueAt, valueAt, hg])
      case some field =>
        rw [valueAt_cons hv] at h
        by_cases hf : field = .null
        case pos => exact .inl (valueAt_cons_of_none (get_jsonPatch_of_eq hv hf))
        case neg =>
          rw [valueAt_cons (get_jsonPatch_of_ne hv hf)]
          cases ht : target.get name
          case some old =>
            rw [valueAt_cons ht]
            exact hi h
          case none =>
            rw [valueAt_cons_of_none ht]
            refine .inl <| (hi h).elim id fun he => he.trans <| valueAt_null fun hn => ?_
            rw [hn] at h
            cases h

end Json

namespace ConnectorRunStateUpdate

-- What the reference and the store make of one row: they agree on everything but the precision of
-- the times and the fields which a patch sets to `null`. What a patch does not name below a key which
-- it sets to an object is left open.
structure Agree (update : ConnectorRunStateUpdate) (connector r q : Connector) : Prop where
  columns : ∃ lastRun lastSuccess checkpoint, q = { r with lastRun, lastSuccess, checkpoint }
  times   : q.lastRun.map SqliteStore.stored = r.lastRun.map SqliteStore.stored ∧
    q.lastSuccess.map SqliteStore.stored = r.lastSuccess.map SqliteStore.stored
  kept    : (∀ patch, update.checkpoint ≠ .merge patch) → q.checkpoint = r.checkpoint
  named   : ∀ patch name path value, update.checkpoint = .merge patch →
    patch.valueAt (name :: path) = some value →
      r.checkpoint.valueAt (name :: path) = some value ∧
        Json.Kept (q.checkpoint.valueAt (name :: path)) value
  unnamed : ∀ patch name path, update.checkpoint = .merge patch →
    patch.valueAt (name :: path) = none →
    patch.get name >>= Json.asObject = none ∨ connector.checkpoint.valueAt (name :: path) = none →
      q.checkpoint.valueAt (name :: path) = r.checkpoint.valueAt (name :: path)

section Merge

variable {connector : Connector} {patch value : Json} {path : List String}
variable (hc : update.checkpoint = .merge patch)
include hc

theorem get_applyTo : (update.applyTo connector).checkpoint.get name =
    (patch.get name <|> connector.checkpoint.get name) := by
  simp only [applyTo, hc, get_mergeJsonObjects]

theorem valueAt_applyTo (hv : patch.get name = some value) :
    (update.applyTo connector).checkpoint.valueAt (name :: path) = value.valueAt path := by
  refine Json.valueAt_cons ?_
  rw [get_applyTo hc, hv]
  rfl

theorem checkpoint_setRunState (connector : Connector) : ∃ target : Json,
    (SqliteStore.setRunState update connector).checkpoint = jsonPatch target patch ∧
      ∀ name, target.get name = connector.checkpoint.get name := by
  refine ⟨if connector.checkpoint.asObject.isSome then connector.checkpoint else .object [], ?_,
    fun name => ?_⟩
  case refine_1 => simp only [SqliteStore.setRunState, hc]
  case refine_2 => cases connector.checkpoint <;> rfl

end Merge

theorem agree (connector : Connector) (hv : update.validate = .ok ()) :
    update.Agree connector (update.applyTo connector) (SqliteStore.setRunState update connector) := by
  have hs (t : Timestamp) : SqliteStore.stored (SqliteStore.stored t) = SqliteStore.stored t := by
    have h (t : Int) : t / 1000 * 1000 / 1000 * 1000 = t / 1000 * 1000 := by omega
    exact h t
  have hobj {patch} (hc : update.checkpoint = .merge patch) : patch.asObject.isSome := by
    by_contra hn
    simp [validate, hc, hn] at hv
  refine ⟨⟨_, _, _, rfl⟩, ⟨?_, ?_⟩, fun hn => ?_, fun patch name path value hc hp => ?_,
    fun patch name path hc hp hopen => ?_⟩
  case refine_1 => cases h : update.lastRun <;> simp [applyTo, SqliteStore.setRunState, h, hs]
  case refine_2 => cases h : update.lastSuccess <;> simp [applyTo, SqliteStore.setRunState, h, hs]
  case refine_3 =>
    cases hc : update.checkpoint
    case merge patch => exact (hn patch hc).elim
    all_goals simp only [applyTo, SqliteStore.setRunState, hc]
  case refine_4 =>
    obtain ⟨target, ht, _⟩ := checkpoint_setRunState hc connector
    refine ⟨?_, ?_⟩
    case refine_1 =>
      cases hg : patch.get name
      case none       => rw [Json.valueAt_cons_of_none hg] at hp; cases hp
      case some field => rw [valueAt_applyTo hc hg, ← Json.valueAt_cons hg, hp]
    case refine_2 =>
      rw [ht]
      refine Json.kept_jsonPatch (fun hn => ?_) hp
      have ho := hobj hc
      rw [hn] at ho
      cases ho
  case refine_5 =>
    obtain ⟨target, ht, hget⟩ := checkpoint_setRunState hc connector
    rw [ht]
    cases hg : patch.get name
    case none =>
      have hq := (Json.get_jsonPatch_of_none (hobj hc) hg).trans (hget name)
      have hr : (update.applyTo connector).checkpoint.get name = connector.checkpoint.get name := by
        rw [get_applyTo hc, hg]
        rfl
      rw [Json.valueAt, Json.valueAt, hq, hr]
    case some field =>
      rw [valueAt_applyTo hc hg, ← Json.valueAt_cons hg, hp]
      cases hopen
      case inl h =>
        rw [hg] at h
        exact Json.valueAt_jsonPatch_of_scalar hg h (Json.valueAt_cons hg ▸ hp)
      case inr h =>
        refine (Json.valueAt_jsonPatch hp).elim id fun he => he.trans ?_
        rw [Json.valueAt, hget]
        exact h

end ConnectorRunStateUpdate

namespace ConnectorCheckpoint

variable {time : Rfc3339}

-- A missing field and `null` are read alike.
theorem fromValue_congr {j j' : Json} (ho : j.asObject.isSome) (ho' : j'.asObject.isSome)
    (h : ∀ name ∈ ["last_retrieved_at", "etag", "last_modified", "content_sha256"],
      (j.get name).getD .null = (j'.get name).getD .null) : fromValue time j = fromValue time j' := by
  cases j <;> simp only [Json.asObject, Option.isSome_none, Bool.false_eq_true] at ho
  cases j' <;> simp only [Json.asObject, Option.isSome_none, Bool.false_eq_true] at ho'
  simp only [fromValue, decode]
  rw [h _ (by simp), h _ (by simp), h _ (by simp), h _ (by simp)]

theorem fromValue_saving (checkpoint : ConnectorCheckpoint) (connector : Connector) :
    fromValue time ((checkpoint.saving time).applyTo connector).checkpoint =
      fromValue time (SqliteStore.setRunState (checkpoint.saving time) connector).checkpoint := by
  have ha : (checkpoint.saving time).Agree connector _ _ :=
    ConnectorRunStateUpdate.agree connector rfl
  have hn (name : String) : (checkpoint.toValue time).get name >>= Json.asObject = none := by
    have ht (s : Option String) : (s.elim Json.null Json.string).asObject = none := by
      cases s <;> rfl
    have ht' : (checkpoint.lastRetrievedAt.elim Json.null fun t =>
        Json.string (time.format t)).asObject = none := by
      cases checkpoint.lastRetrievedAt <;> rfl
    simp only [toValue, Json.get, Json.asObject, Option.bind_eq_bind, Option.bind_some,
      Json.lookup_cons]
    split_ifs <;> first | exact ht' | exact ht _ | rfl
  apply fromValue_congr rfl rfl
  intro name _
  have hget (value : Json) : value.valueAt [name] = value.get name := by
    rw [Json.valueAt]
    cases value.get name <;> rfl
  cases hp : (checkpoint.toValue time).get name
  case none =>
    have hu := ha.unnamed _ name [] rfl (by rw [hget, hp]) (.inl (hn name))
    rw [hget, hget] at hu
    rw [hu]
  case some value =>
    have ⟨hr, hq⟩ := ha.named _ name [] value rfl (by rw [hget, hp])
    rw [hget] at hr hq
    have ho := hn name
    rw [hp] at ho
    rw [hr]
    cases value
    case object => cases ho
    case null   => rw [hq]; rfl
    all_goals rw [hq]

end ConnectorCheckpoint

open ConnectorCheckpoint

-- Both stores change a row which they find, each in its own way.
def changeRow (change : Connector → Connector) (connectors : Table Connector) (id : ConnectorId)
    (update : ConnectorRunStateUpdate) : Except CheckpointError (Bool × Table Connector) := do
  update.validate
  match connectors.get? id with
  | none           => return (false, connectors)
  | some connector => return (true, connectors.put (change connector))

theorem changeRow_error {change : Connector → Connector} {e : CheckpointError} :
    changeRow change connectors id update = .error e ↔ update.validate = .error e := by
  unfold changeRow
  cases hv : update.validate <;> cases hg : connectors.get? id <;> simp

theorem changeRow_ok (change : Connector → Connector) {found : Bool}
    (hc : ∀ c, (change c).id = c.id) (h : changeRow change connectors id update = .ok (found, t)) :
    update.validate = .ok () ∧ found = (connectors.get? id).isSome ∧
      ∀ id', t.get? id' = if id' = id then (connectors.get? id).map change
        else connectors.get? id' := by
  unfold changeRow at h
  have ⟨_, hv, h⟩ := Except.bind_eq_ok.mp h
  cases hg : connectors.get? id
  case none =>
    simp only [hg] at h
    cases h
    refine ⟨hv, rfl, fun id' => ?_⟩
    split_ifs with hi
    case pos => exact hi ▸ hg
    case neg => rfl
  case some connector =>
    simp only [hg] at h
    cases h
    refine ⟨hv, rfl, fun id' => ?_⟩
    have hk : (change connector).id = id := (hc connector).trans (Table.get?_key hg)
    simp only [Table.get?_put, Connector.key_eq, hk, eq_comm, Option.map_some]

-- Both stores accept the same updates and find the same rows.
theorem updateConnectorRunState_agree (connectors : Table Connector) (id : ConnectorId)
    (update : ConnectorRunStateUpdate) :
    (∀ e, updateConnectorRunState connectors id update = .error e ↔
      SqliteStore.updateConnectorRunState connectors id update = .error e) ∧
    (∀ found t found' t', updateConnectorRunState connectors id update = .ok (found, t) →
      SqliteStore.updateConnectorRunState connectors id update = .ok (found', t') →
        found = found' ∧ (∀ id', id' ≠ id → t.get? id' = t'.get? id') ∧
          (connectors.get? id = none → t.get? id = none ∧ t'.get? id = none) ∧
          ∀ connector, connectors.get? id = some connector →
            ∃ r q, t.get? id = some r ∧ t'.get? id = some q ∧ update.Agree connector r q) ∧
    (∀ time (checkpoint : ConnectorCheckpoint) found t found' t',
      updateConnectorRunState connectors id (checkpoint.saving time) = .ok (found, t) →
      SqliteStore.updateConnectorRunState connectors id (checkpoint.saving time) = .ok (found', t') →
        (t.get? id).map (fromValue time ·.checkpoint) =
          (t'.get? id).map (fromValue time ·.checkpoint)) := by
  refine ⟨fun e => ?errors, ?rows, ?saved⟩
  case errors => exact changeRow_error.trans changeRow_error.symm
  case rows =>
    intro found t found' t' h h'
    have ⟨hv, hf, ht⟩ := changeRow_ok update.applyTo (fun _ => rfl) h
    have ⟨_, hf', ht'⟩ := changeRow_ok (SqliteStore.setRunState update) (fun _ => rfl) h'
    refine ⟨hf.trans hf'.symm, fun id' hn => ?_, fun hg => ?_, ?_⟩
    · rw [ht, ht', if_neg hn, if_neg hn]
    · rw [ht, ht', if_pos rfl, if_pos rfl, hg]
      exact ⟨rfl, rfl⟩
    · intro connector hg
      rw [ht, ht', if_pos rfl, if_pos rfl, hg]
      exact ⟨_, _, rfl, rfl, ConnectorRunStateUpdate.agree connector hv⟩
  case saved =>
    intro time checkpoint found t found' t' h h'
    have ⟨_, _, ht⟩ := changeRow_ok (checkpoint.saving time).applyTo (fun _ => rfl) h
    have ⟨_, _, ht'⟩ := changeRow_ok
      (SqliteStore.setRunState (checkpoint.saving time)) (fun _ => rfl) h'
    rw [ht, ht', if_pos rfl, if_pos rfl]
    cases connectors.get? id
    case none           => rfl
    case some connector => exact congrArg some (fromValue_saving checkpoint connector)

-- The one store keeps a key which is set to `null`, the other one drops it.
theorem not_setRunState_eq_applyTo : ¬∀ (connector : Connector) (update : ConnectorRunStateUpdate),
    SqliteStore.setRunState update connector = update.applyTo connector := by
  intro h
  have h := congrArg (·.checkpoint.get "etag") <| h (Sample.rss (.object [("etag", .string "1")]))
    { checkpoint := .merge (.object [("etag", .null)]) }
  simp only [ConnectorRunStateUpdate.applyTo, get_mergeJsonObjects] at h
  cases h
