import OsintCore.Query.Dsl
import OsintCore.Control.Except

namespace OpenSearch

open Leaves

variable {β D : Type} [Boost β] {fields : List (SearchField β)} {depth : Nat} {q : Json}
variable {qs : List Json} {l : Leaves D} {d : D}

-- The value of an expression, whose conditions are looked for in the given fields.
def valueOf (l : Leaves D) (d : D) (fields : List (SearchField β)) : MatchKind → String → Bool :=
  l.multiMatch d (fieldList fields)

@[simp]
theorem fieldNames_multiMatch {text : String} {kind : List (String × Json)} :
    fieldNames (("query", .string text) ::
      ("fields", .array <| (fieldList fields).map .string) :: kind) = fieldList fields := by
  simp [fieldNames, Json.asArray, Json.asStr, List.filterMap_map, Function.comp_def, List.lookup]

@[simp]
theorem holds_matchAll : l.holds d matchAll = true := by
  simp [matchAll, holds, leaf]

theorem holds_bool {clauses : List (String × Json)} :
    l.holds d (bool clauses) = l.clauses d (needsOne clauses) clauses := by
  simp [bool, holds]

mutual

theorem holds_translateExpr {expr : QueryExpr} {depth : Nat} {q : Json}
    (h : translateExpr fields expr depth = .ok q) :
    l.holds d q = expr.eval (valueOf l d fields) := by
  unfold translateExpr at h
  split_ifs at h
  cases expr
  case term text =>
    cases h
    simp [multiMatch, holds, leaf, matchKind, Leaves.text, List.lookup, Json.asStr, QueryExpr.eval,
      valueOf]
  case phrase text =>
    cases h
    simp [multiMatch, holds, leaf, matchKind, Leaves.text, List.lookup, Json.asStr, QueryExpr.eval,
      valueOf]
  case and parts =>
    have ⟨qs, hs, hq⟩ := Except.bind_eq_ok.mp h
    cases hq
    simp [holds_bool, clauses, QueryExpr.eval, all_translateAll hs]
  case or parts =>
    have ⟨qs, hs, hq⟩ := Except.bind_eq_ok.mp h
    cases hq
    simp [holds_bool, clauses, needsOne, List.lookup, QueryExpr.eval, any_translateAll hs]
  case not inner =>
    have ⟨q', hi, hq⟩ := Except.bind_eq_ok.mp h
    cases hq
    simp [holds_bool, clauses, all, any, QueryExpr.eval, holds_translateExpr hi]

theorem all_translateAll {parts : List QueryExpr} {depth : Nat} {qs : List Json}
    (h : translateAll fields parts depth = .ok qs) :
    l.all d qs = QueryExpr.evalAll (valueOf l d fields) parts := by
  cases parts
  case nil => cases h; rfl
  case cons part parts =>
    have ⟨q, hq, h⟩   := Except.bind_eq_ok.mp h
    have ⟨qs, hs, h⟩  := Except.bind_eq_ok.mp h
    cases h
    simp [all, QueryExpr.evalAll, holds_translateExpr hq, all_translateAll hs]

theorem any_translateAll {parts : List QueryExpr} {depth : Nat} {qs : List Json}
    (h : translateAll fields parts depth = .ok qs) :
    l.any d qs = QueryExpr.evalAny (valueOf l d fields) parts := by
  cases parts
  case nil => cases h; rfl
  case cons part parts =>
    have ⟨q, hq, h⟩   := Except.bind_eq_ok.mp h
    have ⟨qs, hs, h⟩  := Except.bind_eq_ok.mp h
    cases h
    simp [any, QueryExpr.evalAny, holds_translateExpr hq, any_translateAll hs]

end

variable {rfc3339 : Timestamp → String}

@[simp]
theorem holds_term {field value : String} :
    l.holds d (term field value) = l.term d field value := by
  simp [term, holds, leaf]

theorem all_terms {terms : List (String × String)} :
    l.all d (terms.map fun t => term t.fst t.snd) = terms.all fun t => l.term d t.fst t.snd := by
  induction terms
  case nil          => rfl
  case cons t ts hi => simp [all, hi]

theorem holds_translateFilter {f : SearchFilter} :
    l.holds d (translateFilter rfc3339 f) = f.eval rfc3339 l d := by
  cases f
  case term    => simp [translateFilter, SearchFilter.eval]
  case missing => simp [translateFilter, holds_bool, clauses, any, holds, leaf, Leaves.text,
    List.lookup, Json.asStr, SearchFilter.eval]
  case dateRange field «from» «to» =>
    cases «from» <;> cases «to» <;>
      simp [translateFilter, holds, leaf, Leaves.text, List.lookup, Json.asStr, SearchFilter.eval]
  case nested path terms =>
    simp [translateFilter, holds, Leaves.inner, holds_bool, clauses, all_terms, Leaves.text,
      List.lookup, Json.asStr, SearchFilter.eval]

theorem all_filters (rfc3339 : Timestamp → String) {filters : List SearchFilter} :
    l.all d (filters.map (translateFilter rfc3339)) = filters.all (·.eval rfc3339 l d) := by
  induction filters
  case nil          => rfl
  case cons f fs hi => simp [all, hi, holds_translateFilter]

-- The adapter accepts exactly the expressions which are not too high.

mutual

theorem exists_translateExpr {expr : QueryExpr} {depth : Nat}
    (h : depth + expr.height ≤ maxExprDepth) : ∃ q, translateExpr fields expr depth = .ok q := by
  unfold translateExpr
  rw [if_neg (by omega)]
  cases expr
  case term   => exact ⟨_, rfl⟩
  case phrase => exact ⟨_, rfl⟩
  case and parts =>
    have ⟨qs, hs⟩ := exists_translateAll h
    exact ⟨_, Except.bind_eq_ok.mpr ⟨qs, hs, rfl⟩⟩
  case or parts =>
    have ⟨qs, hs⟩ := exists_translateAll h
    exact ⟨_, Except.bind_eq_ok.mpr ⟨qs, hs, rfl⟩⟩
  case not inner =>
    have hi : depth + 1 + inner.height ≤ maxExprDepth := by
      simp only [QueryExpr.height] at h
      omega
    have ⟨q, hq⟩ := exists_translateExpr hi
    exact ⟨_, Except.bind_eq_ok.mpr ⟨q, hq, rfl⟩⟩

theorem exists_translateAll {parts : List QueryExpr} {depth : Nat}
    (h : depth + QueryExpr.heights parts ≤ maxExprDepth) :
    ∃ qs, translateAll fields parts depth = .ok qs := by
  cases parts
  case nil => exact ⟨_, rfl⟩
  case cons part parts =>
    simp only [QueryExpr.heights] at h
    have hp : depth + 1 + part.height ≤ maxExprDepth              := by omega
    have hs : depth + QueryExpr.heights parts ≤ maxExprDepth      := by omega
    have ⟨q, hq⟩  := exists_translateExpr hp
    have ⟨qs, hs⟩ := exists_translateAll hs
    exact ⟨_, Except.bind_eq_ok.mpr ⟨q, hq, Except.bind_eq_ok.mpr ⟨qs, hs, rfl⟩⟩⟩

end

mutual

theorem translateExpr_eq_error {expr : QueryExpr} {depth : Nat}
    (h : maxExprDepth < depth + expr.height) :
    translateExpr fields expr depth = .error nestingError := by
  unfold translateExpr
  split_ifs with hd
  case pos => rfl
  case neg =>
    cases expr
    case term   => exact absurd h hd
    case phrase => exact absurd h hd
    case and parts => exact Except.bind_eq_error.mpr <| .inl <| translateAll_eq_error hd h
    case or parts  => exact Except.bind_eq_error.mpr <| .inl <| translateAll_eq_error hd h
    case not inner =>
      have hi : maxExprDepth < depth + 1 + inner.height := by
        simp only [QueryExpr.height] at h
        omega
      exact Except.bind_eq_error.mpr <| .inl <| translateExpr_eq_error hi

theorem translateAll_eq_error {parts : List QueryExpr} {depth : Nat} (hd : ¬depth > maxExprDepth)
    (h : maxExprDepth < depth + QueryExpr.heights parts) :
    translateAll fields parts depth = .error nestingError := by
  cases parts
  case nil => exact absurd h hd
  case cons part parts =>
    by_cases hp : depth + 1 + part.height ≤ maxExprDepth
    case neg =>
      exact Except.bind_eq_error.mpr <| .inl <| translateExpr_eq_error <| by omega
    case pos =>
      have ⟨q, hq⟩ : ∃ q, translateExpr fields part (depth + 1) = .ok q := exists_translateExpr hp
      have hs : maxExprDepth < depth + QueryExpr.heights parts := by
        simp only [QueryExpr.heights] at h
        omega
      refine Except.bind_eq_error.mpr <| .inr ⟨q, hq, ?_⟩
      exact Except.bind_eq_error.mpr <| .inl <| translateAll_eq_error hd hs

end

-- Expressions of one shape are translated to one query, up to the texts.

open Json in
mutual

theorem blank_translateExpr {expr : QueryExpr} {depth : Nat} :
    (translateExpr fields expr depth).map blank =
      (translateExpr fields expr.shape depth).map blank := by
  unfold translateExpr
  split_ifs
  case pos => rfl
  case neg =>
    cases expr
    case term text   => rfl
    case phrase text => rfl
    case and parts   =>
      refine Except.map_bind_congr blank_translateAll fun qs qs' hq => ?_
      simp [bool, blank, blankFields, hq]
    case or parts    =>
      refine Except.map_bind_congr blank_translateAll fun qs qs' hq => ?_
      simp [bool, blank, blankFields, hq]
    case not inner   =>
      refine Except.map_bind_congr blank_translateExpr fun q q' hq => ?_
      simp [bool, blank, blankFields, blankAll, hq]

theorem blank_translateAll {parts : List QueryExpr} {depth : Nat} :
    (translateAll fields parts depth).map blankAll =
      (translateAll fields (QueryExpr.shapes parts) depth).map blankAll := by
  cases parts
  case nil => rfl
  case cons part parts =>
    refine Except.map_bind_congr blank_translateExpr fun q q' hq => ?_
    refine Except.map_bind_congr blank_translateAll fun qs qs' hs => ?_
    simp [blankAll, hq, hs]

end

-- The whole body.

variable {query : StructuredSearch β} {expr expr' : QueryExpr}

theorem buildSearchBody_some (rfc3339 : Timestamp → String) (expr : QueryExpr)
    (hf : query.fields.isEmpty = false) :
    buildSearchBody rfc3339 { query with expression := some expr } =
      (translateExpr query.fields expr 0).map fun q =>
        bodyOf query <| boolClauses rfc3339 query [("must", .array [q])] := by
  simp only [buildSearchBody, mustClauses, hf, Bool.false_eq_true, if_false]
  cases translateExpr query.fields expr 0 <;> rfl

theorem buildSearchBody_no_fields (hf : query.fields.isEmpty = true) :
    buildSearchBody rfc3339 { query with expression := some expr } = .error noFields := by
  simp only [buildSearchBody, mustClauses, hf, if_true]
  rfl

omit [Boost β] in
theorem holds_boolClauses :
    l.holds d (bool <| boolClauses rfc3339 query [("must", .array [q])]) =
      (l.holds d q && query.filters.all (·.eval rfc3339 l d)) := by
  rw [← all_filters, boolClauses]
  generalize query.filters.map (translateFilter rfc3339) = filters
  cases filters <;> simp [holds_bool, clauses, all]

omit [Boost β] in
theorem blank_bodyOf {q' : Json} (h : q.blank = q'.blank) :
    (bodyOf query <| boolClauses rfc3339 query [("must", .array [q])]).blank =
      (bodyOf query <| boolClauses rfc3339 query [("must", .array [q'])]).blank := by
  simp [bodyOf, boolClauses, bool, Json.blankFields, Json.blank, Json.blankAll, h]

theorem blank_buildSearchBody (h : expr.shape = expr'.shape) :
    (buildSearchBody rfc3339 { query with expression := some expr }).map Json.blank =
      (buildSearchBody rfc3339 { query with expression := some expr' }).map Json.blank := by
  cases hf : query.fields.isEmpty
  case true  => rw [buildSearchBody_no_fields hf, buildSearchBody_no_fields hf]
  case false =>
    have hq : (translateExpr query.fields expr 0).map Json.blank =
        (translateExpr query.fields expr' 0).map Json.blank := by
      rw [blank_translateExpr, h, ← blank_translateExpr]
    rw [buildSearchBody_some _ _ hf, buildSearchBody_some _ _ hf]
    exact Except.map_bind_congr hq fun _ _ hq => congrArg Except.ok <| blank_bodyOf hq

theorem buildSearchBody_faithful (rfc3339 : Timestamp → String) (query : StructuredSearch β) :
    (∀ expr, query.expression = some expr → query.fields ≠ [] → expr.height ≤ maxExprDepth →
      ∃ body dsl, buildSearchBody rfc3339 query = .ok body ∧ body.get "query" = some dsl ∧
        ∀ {D : Type} (l : Leaves D) (d : D),
          l.holds d dsl =
            (expr.eval (valueOf l d query.fields) && query.filters.all (·.eval rfc3339 l d))) ∧
    ∀ expr expr', expr.shape = expr'.shape →
      (buildSearchBody rfc3339 { query with expression := some expr }).map Json.blank =
        (buildSearchBody rfc3339 { query with expression := some expr' }).map Json.blank := by
  refine ⟨?eval, fun _ _ h => blank_buildSearchBody h⟩
  intro expr he hf hh
  have hd : 0 + expr.height ≤ maxExprDepth := by omega
  have ⟨q, hq⟩ : ∃ q, translateExpr query.fields expr 0 = .ok q := exists_translateExpr hd
  have hb := buildSearchBody_some rfc3339 expr <| List.isEmpty_eq_false_iff.mpr hf
  rw [hq, ← he] at hb
  refine ⟨_, _, hb, rfl, fun l d => ?_⟩
  rw [holds_boolClauses, holds_translateExpr hq]

-- Whole weights.
instance : Boost Nat where
  isOne   := (· = 1)
  display := toString

def Sample.search (text other : String) : StructuredSearch Nat where
  expression      := some <| .and [.term text, .not (.phrase other)]
  fields          := [⟨"title", 3⟩, ⟨"body", 1⟩]
  filters         := [.term "source_id" "7", .missing "duplicate_of"]
  size            := 20
  searchAfter     := none
  sort            := [⟨"id", false⟩]
  highlightFields := ["title"]

theorem buildSearchBody_faithful_and :
    (∃ body dsl, buildSearchBody (fun _ => "") (Sample.search "lockbit" "\"]") = .ok body ∧
      body.get "query" = some dsl ∧ ∀ {D : Type} (l : Leaves D) (d : D),
        l.holds d dsl =
          ((QueryExpr.and [.term "lockbit", .not (.phrase "\"]")]).eval
              (valueOf l d [⟨"title", 3⟩, ⟨"body", 1⟩]) &&
            [SearchFilter.term "source_id" "7", .missing "duplicate_of"].all
              (·.eval (fun _ => "") l d))) ∧
    (buildSearchBody (fun _ => "") (Sample.search "lockbit" "\"]")).map Json.blank =
      (buildSearchBody (fun _ => "") (Sample.search "a" "b")).map Json.blank :=
  ⟨(buildSearchBody_faithful _ (Sample.search "lockbit" "\"]")).left _ rfl nofun (by decide),
    (buildSearchBody_faithful _ (Sample.search "lockbit" "\"]")).right _ _ rfl⟩

end OpenSearch
