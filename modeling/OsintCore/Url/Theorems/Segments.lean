import Mathlib

-- How a path of a web URL is read: segments of dots are resolved.
namespace PathSegments

def dot : List Char := ['%', '2', 'e']

def isSingleDot (s : List Char) : Bool :=
  s.map Char.toLower ∈ [['.'], dot]

def isDoubleDot (s : List Char) : Bool :=
  s.map Char.toLower ∈ [['.', '.'], '.' :: dot, dot ++ ['.'], dot ++ dot]

-- Dots at the end leave an empty segment behind.
def closed (rest segments : List (List Char)) : List (List Char) :=
  if rest = [] then [] :: segments else segments

-- The segments which have been read are kept in the reverse order.
def resolve : List (List Char) → List (List Char) → List (List Char)
  | read, []        => read.reverse
  | read, s :: rest =>
    if isDoubleDot s then
      resolve (closed rest read.tail) rest
    else if isSingleDot s then
      resolve (closed rest read) rest
    else
      resolve (s :: read) rest

def split (t : List Char) : List (List Char) :=
  t.tail.splitOn '/'

def join (segments : List (List Char)) : List Char :=
  '/' :: ['/'].intercalate segments

def resolveDots (t : List Char) : List Char :=
  join <| resolve [] (split t)

variable {s t : List Char} {read rest segments : List (List Char)}

-- No segment is left to be resolved.
def NoDots (segments : List (List Char)) : Prop :=
  ∀ s ∈ segments, ¬isDoubleDot s ∧ ¬isSingleDot s

instance : Decidable (NoDots segments) :=
  inferInstanceAs (Decidable (∀ s ∈ segments, _))

section Resolve

theorem mem_closed (h : s ∈ closed rest segments) : s = [] ∨ s ∈ segments := by
  unfold closed at h
  split_ifs at h
  case pos => exact List.mem_cons.mp h
  case neg => exact .inr h

theorem resolve_nil : resolve read [] = read.reverse :=
  rfl

theorem resolve_doubleDot (h : isDoubleDot s) :
    resolve read (s :: rest) = resolve (closed rest read.tail) rest :=
  if_pos h

theorem resolve_singleDot (h : ¬isDoubleDot s) (h' : isSingleDot s) :
    resolve read (s :: rest) = resolve (closed rest read) rest := by
  rw [resolve, if_neg h, if_pos h']

theorem resolve_segment (h : ¬isDoubleDot s) (h' : ¬isSingleDot s) :
    resolve read (s :: rest) = resolve (s :: read) rest := by
  rw [resolve, if_neg h, if_neg h']

theorem mem_resolve (h : s ∈ resolve read rest) : s = [] ∨ s ∈ read ∨ s ∈ rest := by
  induction rest generalizing read
  case nil => exact .inr <| .inl <| List.mem_reverse.mp h
  case cons a rest hi =>
    have hstep {segments : List (List Char)} (h : s ∈ resolve segments rest)
        (hs : ∀ x ∈ segments, x = [] ∨ x ∈ read ∨ x = a) : s = [] ∨ s ∈ read ∨ s ∈ a :: rest := by
      rcases hi h with h | h | h
      case inl     => exact .inl h
      case inr.inr => exact .inr <| .inr <| List.mem_cons_of_mem _ h
      case inr.inl =>
        rcases hs s h with h | h | h
        case inl     => exact .inl h
        case inr.inl => exact .inr (.inl h)
        case inr.inr => exact .inr <| .inr <| h ▸ List.mem_cons_self
    by_cases hd : isDoubleDot a
    case pos =>
      rw [resolve_doubleDot hd] at h
      exact hstep h fun x hx => (mem_closed hx).imp_right fun hx => .inl <| List.mem_of_mem_tail hx
    case neg =>
      by_cases hs : isSingleDot a
      case pos =>
        rw [resolve_singleDot hd hs] at h
        exact hstep h fun x hx => (mem_closed hx).imp_right .inl
      case neg =>
        rw [resolve_segment hd hs] at h
        exact hstep h fun x hx => .inr <| (List.mem_cons.mp hx).symm

theorem closed_noDots (h : NoDots segments) : NoDots (closed rest segments) := by
  intro s hs
  rcases mem_closed hs with hs | hs
  case inl => exact hs ▸ by decide
  case inr => exact h s hs

theorem resolve_noDots (h : NoDots read) : NoDots (resolve read rest) := by
  induction rest generalizing read
  case nil => exact fun s hs => h s <| List.mem_reverse.mp hs
  case cons a rest hi =>
    by_cases hd : isDoubleDot a
    case pos =>
      rw [resolve_doubleDot hd]
      exact hi <| closed_noDots fun s hs => h s <| List.mem_of_mem_tail hs
    case neg =>
      by_cases hs : isSingleDot a
      case pos =>
        rw [resolve_singleDot hd hs]
        exact hi <| closed_noDots h
      case neg =>
        rw [resolve_segment hd hs]
        exact hi <| List.forall_mem_cons.mpr ⟨⟨hd, hs⟩, h⟩

theorem resolve_of_noDots (h : NoDots rest) : resolve read rest = read.reverse ++ rest := by
  induction rest generalizing read
  case nil => simp [resolve_nil]
  case cons a rest hi =>
    have ⟨⟨hd, hs⟩, hr⟩ := List.forall_mem_cons.mp h
    rw [resolve_segment hd hs, hi hr]
    simp

-- At least one segment is left.
theorem resolve_ne_nil (h : rest ≠ [] ∨ read ≠ []) : resolve read rest ≠ [] := by
  induction rest generalizing read
  case nil => simpa [resolve_nil] using h
  case cons a rest hi =>
    have hc {segments : List (List Char)} : rest ≠ [] ∨ closed rest segments ≠ [] := by
      by_cases hr : rest = []
      case pos => exact .inr <| by simp [closed, hr]
      case neg => exact .inl hr
    by_cases hd : isDoubleDot a
    case pos => exact resolve_doubleDot hd ▸ hi hc
    case neg =>
      by_cases hs : isSingleDot a
      case pos => exact resolve_singleDot hd hs ▸ hi hc
      case neg => exact resolve_segment hd hs ▸ hi (.inr <| List.cons_ne_nil _ _)

end Resolve

section Split

theorem split_ne_nil : split t ≠ [] :=
  List.splitOn_ne_nil _ _

theorem join_split (h : t.head? = some '/') : join (split t) = t := by
  cases t
  case nil => exact absurd h nofun
  case cons c t =>
    rw [join, split, List.intercalate_splitOn]
    exact congrArg (· :: t) (Option.some.inj h).symm

theorem not_mem_of_mem_splitOn {l : List Char} (h : s ∈ l.splitOn '/') : '/' ∉ s := by
  induction l generalizing s
  case nil =>
    rw [List.splitOn_nil, List.mem_singleton] at h
    simp [h]
  case cons c l hi =>
    rw [List.splitOn_cons_eq_if_modifyHead] at h
    split_ifs at h with hc
    case pos =>
      rcases List.mem_cons.mp h with h | h
      case inl => simp [h]
      case inr => exact hi h
    case neg =>
      cases hl : l.splitOn '/'
      case nil => exact absurd hl (List.splitOn_ne_nil _ _)
      case cons a rest =>
        rw [hl, List.modifyHead_cons] at h
        rcases List.mem_cons.mp h with h | h
        case inr => exact hi <| hl ▸ List.mem_cons_of_mem _ h
        case inl =>
          have ha : '/' ∉ a := hi <| hl ▸ List.mem_cons_self
          have hc : ¬ '/' = c := fun he => hc <| by simp [← he]
          simp [h, ha, hc]

theorem not_mem_of_mem_split (h : s ∈ split t) : '/' ∉ s :=
  not_mem_of_mem_splitOn h

theorem split_join (hs : ∀ s ∈ segments, '/' ∉ s) (hn : segments ≠ []) :
    split (join segments) = segments :=
  List.splitOn_intercalate '/' hs hn

theorem mem_intercalate {c : Char} (h : c ∈ ['/'].intercalate segments) :
    c = '/' ∨ ∃ s ∈ segments, c ∈ s := by
  induction segments
  case nil => exact absurd h List.not_mem_nil
  case cons a segments hi =>
    by_cases hn : segments = []
    case pos =>
      rw [hn, List.intercalate_singleton] at h
      exact .inr ⟨a, List.mem_cons_self, h⟩
    case neg =>
      rw [List.intercalate_cons_of_ne_nil hn, List.append_assoc] at h
      rcases List.mem_append.mp h with h | h
      case inl => exact .inr ⟨a, List.mem_cons_self, h⟩
      case inr =>
        rcases List.mem_cons.mp h with h | h
        case inl => exact .inl h
        case inr => exact (hi h).imp_right fun ⟨s, hs, hc⟩ => ⟨s, List.mem_cons_of_mem _ hs, hc⟩

theorem infix_intercalate (h : s ∈ segments) : s <:+: ['/'].intercalate segments := by
  induction segments
  case nil => exact absurd h List.not_mem_nil
  case cons a segments hi =>
    by_cases hn : segments = []
    case pos =>
      rw [hn, List.mem_singleton] at h
      rw [hn, h, List.intercalate_singleton]
    case neg =>
      rw [List.intercalate_cons_of_ne_nil hn]
      rcases List.mem_cons.mp h with h | h
      case inl => exact h ▸ (List.prefix_append_of_prefix <| List.prefix_append ..).isInfix
      case inr => exact (hi h).trans (List.suffix_append ..).isInfix

-- Whatever stands in a segment stands in the text.
theorem mem_of_mem_split {c : Char} (hs : s ∈ split t) (hc : c ∈ s) : c ∈ t := by
  have hi := infix_intercalate hs
  rw [split, List.intercalate_splitOn] at hi
  exact List.mem_of_mem_tail <| hi.subset hc

theorem mem_resolveDots {c : Char} (h : c ∈ resolveDots t) : c = '/' ∨ c ∈ t := by
  rcases List.mem_cons.mp h with h | h
  case inl => exact .inl h
  case inr =>
    rcases mem_intercalate h with h | ⟨s, hs, hc⟩
    case inl => exact .inl h
    case inr =>
      rcases mem_resolve hs with hs | hs | hs
      case inl     => exact absurd (hs ▸ hc) List.not_mem_nil
      case inr.inl => exact absurd hs List.not_mem_nil
      case inr.inr => exact .inr <| mem_of_mem_split hs hc

theorem split_resolveDots : split (resolveDots t) = resolve [] (split t) := by
  refine split_join (fun s hs => ?_) <| resolve_ne_nil <| .inl split_ne_nil
  rcases mem_resolve hs with hs | hs | hs
  case inl     => simp [hs]
  case inr.inl => exact absurd hs List.not_mem_nil
  case inr.inr => exact not_mem_of_mem_split hs

theorem splitOn_eq (h : t.head? = some '/') : t.splitOn '/' = [] :: split t := by
  cases t
  case nil => exact absurd h nofun
  case cons c t =>
    rw [Option.some.inj h]
    exact List.splitOn_append_cons_self [] t

theorem noDots_resolveDots : NoDots (split (resolveDots t)) :=
  split_resolveDots ▸ resolve_noDots fun _ h => absurd h List.not_mem_nil

theorem resolveDots_eq_self (h : t.head? = some '/') (hd : NoDots (split t)) : resolveDots t = t := by
  rw [resolveDots, resolve_of_noDots hd, List.reverse_nil, List.nil_append, join_split h]

theorem head_resolveDots : (resolveDots t).head? = some '/' :=
  rfl

end Split

end PathSegments
