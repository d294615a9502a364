import OsintCore.Query.Parser
import OsintCore.Query.Theorems.OpenSearch

-- The height of the expression, counted on the tokens in one pass with a stack of open parentheses.

namespace Query

-- What has been read of a group. A group is the whole input or stands in parentheses.
structure Group where
  nots                : Nat
  conditions          : Nat
  deepest             : Nat
  alternatives        : Nat
  deepestAlternative  : Nat

namespace Group

def empty : Group :=
  ⟨0, 0, 0, 0, 0⟩

-- An operator between several operands is one level.
def level (operands deepest : Nat) : Nat :=
  if operands ≤ 1 then deepest else deepest + 1

def height (g : Group) : Nat :=
  level (g.alternatives + 1) (max g.deepestAlternative <| level g.conditions g.deepest)

def condition (g : Group) (height : Nat) : Group :=
  { g with
    nots       := 0
    conditions := g.conditions + 1
    deepest    := max g.deepest (g.nots + height) }

def alternative (g : Group) : Group where
  nots               := 0
  conditions         := 0
  deepest            := 0
  alternatives       := g.alternatives + 1
  deepestAlternative := max g.deepestAlternative (level g.conditions g.deepest)

end Group

def nest : List Group → Token → List Group
  | g :: gs, .word _      => g.condition 0 :: gs
  | g :: gs, .phrase _    => g.condition 0 :: gs
  | g :: gs, .not         => { g with nots := g.nots + 1 } :: gs
  | g :: gs, .or          => g.alternative :: gs
  | gs, .open             => .empty :: gs
  | g :: g' :: gs, .close => g'.condition g.height :: gs
  | gs, _                 => gs

def nesting (tokens : List Token) : Nat :=
  match tokens.foldl nest [.empty] with
  | g :: _ => g.height
  | []     => 0

namespace Group

variable {g : Group}

-- The height of what the alternatives read so far have above them.
def top (g : Group) : Nat :=
  max g.deepestAlternative (level g.conditions g.deepest)

def conj (g : Group) (conditions deepest : Nat) : Group :=
  { g with nots := 0, conditions, deepest }

structure Fresh (g : Group) : Prop where
  nots       : g.nots = 0
  conditions : g.conditions = 0
  deepest    : g.deepest = 0

theorem fresh_empty : empty.Fresh :=
  ⟨rfl, rfl, rfl⟩

theorem fresh_alternative : g.alternative.Fresh :=
  ⟨rfl, rfl, rfl⟩

theorem condition_not {h : Nat} :
    { g with nots := g.nots + 1 }.condition h = g.condition (h + 1) := by
  simp [condition, Nat.add_right_comm, Nat.add_assoc]

end Group

def highest (m : Nat) (es : List QueryExpr) : Nat :=
  es.foldl (fun m e => max m e.height) m

variable {ts rest : List Token} {e : QueryExpr} {es : List QueryExpr} {g : Group}
variable {depth m : Nat}

theorem highest_succ : highest m es + 1 = max (m + 1) (QueryExpr.heights es) := by
  induction es generalizing m
  case nil          => simp [highest, QueryExpr.heights]
  case cons e es hi =>
    have h : highest m (e :: es) = highest (max m e.height) es := rfl
    rw [h, hi]
    simp only [QueryExpr.heights]
    omega

theorem height_andOf :
    (andOf (e :: es)).height = Group.level (es.length + 1) (highest 0 (e :: es)) := by
  cases es
  case nil          => simp [andOf, Group.level, highest]
  case cons e' es   =>
    have h := @highest_succ (e :: e' :: es) 0
    simp only [QueryExpr.heights] at h
    simp [andOf, Group.level, QueryExpr.height, QueryExpr.heights, h]

theorem height_orOf :
    (orOf (e :: es)).height = Group.level (es.length + 1) (highest 0 (e :: es)) := by
  cases es
  case nil          => simp [orOf, Group.level, highest]
  case cons e' es   =>
    have h := @highest_succ (e :: e' :: es) 0
    simp only [QueryExpr.heights] at h
    simp [orOf, Group.level, QueryExpr.height, QueryExpr.heights, h]

theorem foldl_condition (es : List QueryExpr) (hn : g.nots = 0) :
    es.foldl (fun g e => g.condition e.height) g =
      g.conj (g.conditions + es.length) (highest g.deepest es) := by
  induction es generalizing g
  case nil          => cases g; cases hn; rfl
  case cons e es hi =>
    rw [List.foldl_cons, hi rfl]
    simp [Group.condition, Group.conj, highest, hn, Nat.add_assoc, Nat.add_comm 1]

-- How the pass goes over the tokens which each part of the parser accepts.
structure Nests (ts : List Token) : Prop where
  or      : ∀ {depth e rest} gs, parseOr depth ts = .ok (e, rest) →
    ∃ g, g.height = e.height ∧ ts.foldl nest (.empty :: gs) = rest.val.foldl nest (g :: gs)
  orTail  : ∀ {depth es rest} g gs, parseOrTail depth ts = .ok (es, rest) →
    ∃ g', g'.alternatives = g.alternatives + es.length ∧ g'.top = highest g.top es ∧
      ts.foldl nest (g :: gs) = rest.val.foldl nest (g' :: gs)
  and     : ∀ {depth e rest g} gs, parseAnd depth ts = .ok (e, rest) → g.Fresh →
    ∃ n m, Group.level n m = e.height ∧
      ts.foldl nest (g :: gs) = rest.val.foldl nest (g.conj n m :: gs)
  andTail : ∀ {depth es rest} g gs, parseAndTail depth ts = .ok (es, rest) →
    ts.foldl nest (g :: gs) =
      rest.val.foldl nest (es.foldl (fun g e => g.condition e.height) g :: gs)
  unary   : ∀ {depth e rest} g gs, parseUnary depth ts = .ok (e, rest) →
    ts.foldl nest (g :: gs) = rest.val.foldl nest (g.condition e.height :: gs)

section

variable (gs : List Group) (hi : ∀ ts', ts'.length < ts.length → Nests ts')
include hi

theorem nest_parsePrimary (g : Group) {rest : Rest ts} (h : parsePrimary depth ts = .ok (e, rest)) :
    ts.foldl nest (g :: gs) = rest.val.foldl nest (g.condition e.height :: gs) := by
  unfold parsePrimary at h
  split at h
  case h_1 => cases h; rfl
  case h_2 => cases h; rfl
  case h_4 => cases h
  case h_5 => cases h
  case h_6 => cases h
  case h_3 ts =>
    split_ifs at h
    obtain ⟨⟨inner, rest₁, h₁⟩, ho, h⟩ := Except.bind_eq_ok.mp h
    obtain ⟨g', hg, hr⟩ := hi ts (by simp) |>.or (g :: gs) ho
    cases rest₁
    case nil => cases h
    case cons t _ =>
      cases t
      case close =>
        cases h
        exact hr.trans <| by rw [← hg]; rfl
      all_goals cases h

theorem nest_parseUnary (g : Group) {rest : Rest ts} (h : parseUnary depth ts = .ok (e, rest)) :
    ts.foldl nest (g :: gs) = rest.val.foldl nest (g.condition e.height :: gs) := by
  unfold parseUnary at h
  split at h
  case h_2 => exact nest_parsePrimary gs hi g h
  case h_1 ts =>
    split_ifs at h
    obtain ⟨⟨inner, rest₁, h₁⟩, hu, h⟩ := Except.bind_eq_ok.mp h
    cases h
    exact (hi ts (by simp) |>.unary _ _ hu).trans <| by rw [Group.condition_not]; rfl

theorem nest_parseAndTail (g : Group) {rest : Unread ts}
    (h : parseAndTail depth ts = .ok (es, rest)) :
    ts.foldl nest (g :: gs) =
      rest.val.foldl nest (es.foldl (fun g e => g.condition e.height) g :: gs) := by
  unfold parseAndTail at h
  split at h
  case h_1 ts =>
    split_ifs at h
    obtain ⟨⟨part, rest₁, h₁⟩, hp, h⟩  := Except.bind_eq_ok.mp h
    obtain ⟨⟨parts, rest₂, h₂⟩, ht, h⟩ := Except.bind_eq_ok.mp h
    cases h
    have hr := hi rest₁ (h₁.trans (by simp)) |>.andTail (g.condition part.height) gs ht
    exact (hi ts (by simp) |>.unary g gs hp).trans hr
  case h_2 =>
    split_ifs at h
    case neg => cases h; rfl
    case pos =>
      obtain ⟨⟨part, rest₁, h₁⟩, hp, h⟩  := Except.bind_eq_ok.mp h
      obtain ⟨⟨parts, rest₂, h₂⟩, ht, h⟩ := Except.bind_eq_ok.mp h
      cases h
      exact (nest_parseUnary gs hi g hp).trans <| hi rest₁ h₁ |>.andTail _ _ ht

theorem nest_parseAnd {rest : Rest ts} (h : parseAnd depth ts = .ok (e, rest)) (hg : g.Fresh) :
    ∃ n m, Group.level n m = e.height ∧
      ts.foldl nest (g :: gs) = rest.val.foldl nest (g.conj n m :: gs) := by
  unfold parseAnd at h
  have ⟨⟨part, rest₁, h₁⟩, hp, h⟩  := Except.bind_eq_ok.mp h
  have ⟨⟨parts, rest₂, h₂⟩, ht, h⟩ := Except.bind_eq_ok.mp h
  cases h
  refine ⟨_, _, height_andOf.symm, ?_⟩
  have hf := foldl_condition (part :: parts) hg.nots
  rw [hg.conditions, hg.deepest, zero_add, List.foldl_cons] at hf
  rw [nest_parseUnary gs hi g hp, hi rest₁ h₁ |>.andTail _ _ ht, hf]
  rfl

theorem nest_parseOrTail (g : Group) {rest : Unread ts}
    (h : parseOrTail depth ts = .ok (es, rest)) :
    ∃ g', g'.alternatives = g.alternatives + es.length ∧ g'.top = highest g.top es ∧
      ts.foldl nest (g :: gs) = rest.val.foldl nest (g' :: gs) := by
  unfold parseOrTail at h
  split at h
  case h_2 => cases h; exact ⟨g, rfl, rfl, rfl⟩
  case h_1 ts =>
    split_ifs at h
    obtain ⟨⟨part, rest₁, h₁⟩, hp, h⟩  := Except.bind_eq_ok.mp h
    obtain ⟨⟨parts, rest₂, h₂⟩, ht, h⟩ := Except.bind_eq_ok.mp h
    cases h
    obtain ⟨n, m, hm, hn⟩   := hi ts (by simp) |>.and gs hp g.fresh_alternative
    obtain ⟨g', ha, hg, ho⟩ :=
      hi rest₁ (h₁.trans (by simp)) |>.orTail (g.alternative.conj n m) gs ht
    refine ⟨g', ?_, ?_, hn.trans ho⟩
    · rw [ha]
      simp only [Group.conj, Group.alternative, List.length_cons]
      omega
    · rw [hg, Group.top, Group.conj, hm]
      rfl

theorem nest_parseOr {rest : Rest ts} (h : parseOr depth ts = .ok (e, rest)) :
    ∃ g, g.height = e.height ∧ ts.foldl nest (.empty :: gs) = rest.val.foldl nest (g :: gs) := by
  unfold parseOr at h
  split_ifs at h
  split at h
  case h_1 => cases h
  case h_2 =>
    obtain ⟨⟨part, rest₁, h₁⟩, hp, h⟩  := Except.bind_eq_ok.mp h
    obtain ⟨⟨parts, rest₂, h₂⟩, ht, h⟩ := Except.bind_eq_ok.mp h
    cases h
    obtain ⟨n, m, hm, hn⟩  := nest_parseAnd gs hi hp Group.fresh_empty
    obtain ⟨g, ha, hg, ho⟩ := hi rest₁ h₁ |>.orTail (Group.empty.conj n m) gs ht
    refine ⟨g, ?_, hn.trans ho⟩
    have ht : (Group.empty.conj n m).top = part.height := by
      rw [Group.top, Group.conj, hm]
      exact Nat.zero_max _
    have hm : highest 0 (part :: parts) = g.top := by
      rw [hg, ht]
      exact congrArg (highest · parts) (Nat.zero_max _)
    rw [height_orOf, hm, Group.height, ha]
    exact congrArg (Group.level · _) (by simp [Group.conj, Group.empty])

end

theorem nests (ts : List Token) : Nests ts :=
  have hi : ∀ ts', ts'.length < ts.length → Nests ts' := fun ts' _ => nests ts'
  { or      := fun gs => nest_parseOr gs hi
    orTail  := fun g gs => nest_parseOrTail gs hi g
    and     := fun gs => nest_parseAnd gs hi
    andTail := fun g gs => nest_parseAndTail gs hi g
    unary   := fun g gs => nest_parseUnary gs hi g }
termination_by ts.length

theorem nesting_of_parseOr {rest : Rest ts} (h : parseOr depth ts = .ok (e, rest))
    (hr : rest.val = []) : nesting ts = e.height := by
  have ⟨g, hg, hf⟩ := (nests ts).or [] h
  rw [nesting, hf, hr]
  exact hg

def nestingOf (input : String) : Nat :=
  match tokenize input with
  | .ok tokens => nesting tokens
  | .error _   => 0

theorem nestingOf_of_parse {input : String} (h : parse input = .ok (some e)) :
    nestingOf input = e.height := by
  unfold parse at h
  split_ifs at h
  have ⟨tokens, ht, h⟩ := Except.bind_eq_ok.mp h
  split_ifs at h
  case pos => cases h
  have ⟨⟨e', rest, h'⟩, hp, h⟩ := Except.bind_eq_ok.mp h
  dsimp only at h
  split_ifs at h with hr
  cases h
  rw [nestingOf, ht]
  exact nesting_of_parseOr hp <| not_not.mp hr

-- Whether the adapter accepts what the parser has accepted.

open OpenSearch

variable {β : Type} [Boost β]

theorem buildSearchBody_of_height {query : StructuredSearch β} {expr : QueryExpr}
    (rfc3339 : Timestamp → String) (he : query.expression = some expr) (hf : query.fields ≠ []) :
    buildSearchBody rfc3339 query ≠ .error nestingError ↔ expr.height ≤ maxExprDepth := by
  have hb : buildSearchBody rfc3339 { query with expression := some expr } = _ :=
    buildSearchBody_some rfc3339 expr <| List.isEmpty_eq_false_iff.mpr hf
  rw [← he] at hb
  change buildSearchBody rfc3339 query = _ at hb
  rw [hb]
  constructor
  case mp =>
    intro hn
    by_contra hh
    have ht := @translateExpr_eq_error _ _ query.fields expr 0 (by omega)
    exact hn <| by rw [ht]; rfl
  case mpr =>
    intro hh
    have ⟨q, hq⟩ := @exists_translateExpr _ _ query.fields expr 0 (by omega)
    rw [hq]
    exact nofun

theorem buildSearchBody_parse (rfc3339 : Timestamp → String) {input : String} {expr : QueryExpr}
    {query : StructuredSearch β} (h : parse input = .ok (some expr))
    (he : query.expression = some expr) (hf : query.fields ≠ []) :
    buildSearchBody rfc3339 query ≠ .error nestingError ↔ nestingOf input ≤ maxExprDepth := by
  rw [nestingOf_of_parse h]
  exact buildSearchBody_of_height rfc3339 he hf

def accepts (input : String) : Bool :=
  match parse input with
  | .ok (some _) => true
  | _            => false

theorem exists_of_accepts {input : String} (h : accepts input) :
    ∃ expr, parse input = .ok (some expr) := by
  unfold accepts at h
  split at h
  case h_1 hp => exact ⟨_, hp⟩
  case h_2    => cases h

-- Four parentheses are enough.
theorem not_buildSearchBody_parse :
    ¬∀ (input : String) (expr : QueryExpr) (query : StructuredSearch Nat),
      parse input = .ok (some expr) → query.expression = some expr → query.fields ≠ [] →
        buildSearchBody (fun _ => "") query ≠ .error nestingError := by
  intro h
  let input := "a OR b (c OR d (e OR f (g OR h (i OR j k))))"
  have ⟨expr, hp⟩ := exists_of_accepts (show accepts input by decide +kernel)
  have hn : nestingOf input = 10 := by decide +kernel
  let query := { Sample.search "" "" with expression := some expr }
  have hh := buildSearchBody_of_height (fun _ => "") (rfl : query.expression = _) nofun
  have hl := hh.mp <| h input expr query hp rfl nofun
  rw [← nestingOf_of_parse hp, hn] at hl
  exact absurd hl (by decide)

theorem buildSearchBody_parse_not :
    buildSearchBody (fun _ => "")
        { Sample.search "" "" with expression := some (.not (.term "a")) } ≠ .error nestingError ↔
      nestingOf "NOT a" ≤ maxExprDepth :=
  buildSearchBody_parse _ (by with_unfolding_all rfl) rfl nofun

end Query
