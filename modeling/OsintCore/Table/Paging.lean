import OsintCore.Table.Basic

open Keyed (key)

namespace Table

variable {α ι : Type} [LinearOrder ι] [Keyed α ι] {t : Table α} {p : α → Bool} {after : Option ι}
  {n : Nat} {a : α}

-- WHERE .. AND key < after ORDER BY key DESC LIMIT n
def page (t : Table α) (p : α → Bool) (after : Option ι) (n : Nat) : List α :=
  t.rows.filter (fun a => p a ∧ after.all (key a < ·)) |>.reverse.take n

theorem length_page_le (t : Table α) (p : α → Bool) (after : Option ι) (n : Nat) :
    (t.page p after n).length ≤ n := by
  simp [page]

theorem page_sorted : (t.page p after n).Pairwise (key · > key ·) :=
  .take <| List.pairwise_reverse.mpr <| t.sorted.filter _

theorem mem_of_mem_page (h : a ∈ t.page p after n) : a ∈ t ∧ p a ∧ ∀ i ∈ after, key a < i := by
  have h := List.mem_of_mem_take h
  simp only [List.mem_reverse, List.mem_filter, decide_eq_true_eq, Option.all_eq_true_iff_get] at h
  have ⟨hm, hp, hk⟩ := h
  refine ⟨hm, hp, fun i hi => ?_⟩
  cases hi
  simpa using hk

-- A row which is missing from its page comes behind the page, and the page is full.
theorem page_complete (ha : a ∈ t) (hp : p a) (hk : ∀ i ∈ after, key a < i) :
    a ∈ t.page p after n ∨
      (t.page p after n).length = n ∧ ∀ b ∈ t.page p after n, key a < key b := by
  let l := t.rows.filter (fun a => p a ∧ after.all (key a < ·)) |>.reverse
  have hl : a ∈ l.take n ++ l.drop n := by
    rw [List.take_append_drop, List.mem_reverse, List.mem_filter]
    cases after <;> simp_all [mem_def]
  have hs : l.Pairwise (key · > key ·) := List.pairwise_reverse.mpr <| t.sorted.filter _
  cases List.mem_append.mp hl
  case inl h => exact .inl h
  case inr h =>
    have hn : 0 < (l.drop n).length := List.length_pos_of_mem h
    rw [← l.take_append_drop n, List.pairwise_append] at hs
    rw [List.length_drop] at hn
    have hn : n ≤ l.length := by omega
    exact .inr ⟨List.length_take_of_le hn, fun b hb => hs.right.right b hb a h⟩

theorem getLast?_le {l : List α} {last b : α} (hs : l.Pairwise (key · > key ·))
    (hl : l.getLast? = some last) (hb : b ∈ l) : key last ≤ key b := by
  obtain ⟨l, rfl⟩ := List.getLast?_eq_some_iff.mp hl
  cases List.mem_append.mp hb
  case inl hb => exact (List.pairwise_append.mp hs).right.right b hb last (by simp) |>.le
  case inr hb => simp_all

-- What comes behind a key, in the order in which it is listed.
def remaining (t : Table α) (p : α → Bool) (after : Option ι) : List α :=
  t.rows.filter (fun a => p a ∧ after.all (key a < ·)) |>.reverse

theorem page_eq_take : t.page p after n = (t.remaining p after).take n :=
  rfl

theorem remaining_none : t.remaining (fun _ => true) none = t.rows.reverse := by
  simp [remaining]

-- Behind the last row of a page comes what the page has not had room for.
theorem remaining_eq_append {last : α} (hl : (t.page p after n).getLast? = some last) :
    t.remaining p after = t.page p after n ++ t.remaining p (key last) := by
  have hs : (t.remaining p after).Pairwise (key · > key ·) :=
    List.pairwise_reverse.mpr <| t.sorted.filter _
  have hlast := (mem_of_mem_page <| List.mem_of_getLast? hl).right.right
  have hf : t.remaining p (key last) = (t.remaining p after).filter (key · < key last) := by
    rw [remaining, remaining, ← List.filter_reverse, ← List.filter_reverse, List.filter_filter]
    refine List.filter_congr fun a _ => ?_
    cases after
    case none => simp [Bool.and_comm]
    case some i =>
      have := hlast i rfl
      have hi : key a < key last → key a < i := (·.trans this)
      simp only [Option.all_some, decide_eq_true_eq]
      grind
  have hd : (t.remaining p after).drop n = t.remaining p (key last) := by
    rw [hf]
    nth_rewrite 2 [← (t.remaining p after).take_append_drop n]
    rw [← (t.remaining p after).take_append_drop n, List.pairwise_append] at hs
    rw [List.filter_append, List.filter_eq_nil_iff.mpr, List.nil_append, List.filter_eq_self.mpr]
    case _ =>
      intro a ha
      simpa using hs.right.right last (List.mem_of_getLast? hl) a ha
    case _ =>
      intro a ha
      simpa using getLast?_le page_sorted hl ha
  rw [← hd, page_eq_take, List.take_append_drop]

section Walk

variable {tables : Nat → Table α} {fuel k : Nat} {rows : List α}

-- The rows a reader gets who goes on behind the last row of each full page. The table may change
-- from page to page.
def walk (tables : Nat → Table α) (p : α → Bool) (n : Nat) :
    Nat → Nat → Option ι → Option (List α)
  | 0, _, _ => none
  | fuel + 1, k, after =>
    let items := (tables k).page p after n
    if n ≤ items.length then
      match items.getLast? with
      | none      => some items
      | some last => (items ++ ·) <$> walk tables p n fuel (k + 1) (key last)
    else
      some items

-- Each step of the walk either ends it or goes on behind the last row of the page.
theorem walk_succ (h : walk tables p n (fuel + 1) k after = some rows) :
    let items := (tables k).page p after n
    (rows = items ∧ (items.length < n ∨ items = [])) ∨
      ∃ last rest, items.getLast? = some last ∧ rows = items ++ rest ∧
        walk tables p n fuel (k + 1) (key last) = some rest := by
  simp only [walk] at h
  split_ifs at h with hn
  case neg => exact .inl ⟨(Option.some.inj h).symm, .inl <| by omega⟩
  case pos =>
    split at h
    case h_1 hl => exact .inl ⟨(Option.some.inj h).symm, .inr <| List.getLast?_eq_none_iff.mp hl⟩
    case h_2 last hl =>
      have ⟨rest, hr, he⟩ := Option.map_eq_some_iff.mp h
      exact .inr ⟨last, rest, hl, he.symm, hr⟩

theorem mem_of_mem_walk (h : walk tables p n fuel k after = some rows) (ha : a ∈ rows) :
    (∃ j ≥ k, a ∈ tables j) ∧ p a ∧ ∀ i ∈ after, key a < i := by
  induction fuel generalizing k after rows
  case zero => cases h
  case succ fuel hi =>
    obtain ⟨rfl, _⟩ | ⟨last, rest, hl, rfl, hr⟩ := walk_succ h
    case inl =>
      have ⟨hm, hp, hk⟩ := mem_of_mem_page ha
      exact ⟨⟨k, le_rfl, hm⟩, hp, hk⟩
    case inr =>
      cases List.mem_append.mp ha
      case inl ha =>
        have ⟨hm, hp, hk⟩ := mem_of_mem_page ha
        exact ⟨⟨k, le_rfl, hm⟩, hp, hk⟩
      case inr ha =>
        have ⟨⟨j, hj, hm⟩, hp, hk⟩ := hi hr ha
        have ⟨_, _, hlast⟩ := mem_of_mem_page <| List.mem_of_getLast? hl
        exact ⟨⟨j, by omega, hm⟩, hp, fun i hi => (hk _ rfl).trans <| hlast i hi⟩

theorem walk_sorted (h : walk tables p n fuel k after = some rows) :
    rows.Pairwise (key · > key ·) := by
  induction fuel generalizing k after rows
  case zero => cases h
  case succ fuel hi =>
    obtain ⟨rfl, _⟩ | ⟨last, rest, hl, rfl, hr⟩ := walk_succ h
    case inl => exact page_sorted
    case inr =>
      refine List.pairwise_append.mpr ⟨page_sorted, hi hr, fun a ha b hb => ?_⟩
      exact (mem_of_mem_walk hr hb).right.right _ rfl |>.trans_le <| getLast?_le page_sorted hl ha

-- A row which matches as long as the walk goes on is reached.
theorem walk_complete {i : ι} (hz : 0 < n) (h : walk tables p n fuel k after = some rows)
    (ha : ∀ j ≥ k, j < k + fuel → ∃ a ∈ tables j, key a = i ∧ p a) (hk : ∀ j ∈ after, i < j) :
    ∃ a ∈ rows, key a = i := by
  induction fuel generalizing k after rows
  case zero => cases h
  case succ fuel hi =>
    have ⟨a, hm, he, hp⟩ := ha k le_rfl (by omega)
    subst he
    have hc := page_complete (n := n) hm hp hk
    obtain ⟨rfl, hn⟩ | ⟨last, rest, hl, rfl, hr⟩ := walk_succ h
    case inl =>
      obtain hc | ⟨hf, _⟩ := hc
      case inl => exact ⟨a, hc, rfl⟩
      case inr =>
        obtain hn | hn := hn
        case inl => omega
        case inr => simp only [hn, List.length_nil] at hf; omega
    case inr =>
      obtain hc | ⟨_, hb⟩ := hc
      case inl => exact ⟨a, List.mem_append_left _ hc, rfl⟩
      case inr =>
        have ⟨b, hb, he⟩ := hi hr (fun j hj hf => ha j (by omega) (by omega)) fun j hj => by
          cases hj
          exact hb last (List.mem_of_getLast? hl)
        exact ⟨b, List.mem_append_right _ hb, he⟩

-- The keys descend, and so there is an end.
theorem walk_terminates [WellFoundedLT ι] (tables : Nat → Table α) (p : α → Bool) (n k : Nat)
    (after : Option ι) : ∃ fuel, (walk tables p n fuel k after).isSome := by
  have h (i : ι) : ∀ k, ∃ fuel, (walk tables p n fuel k i).isSome := by
    induction i using WellFoundedLT.induction
    case ind i hi =>
      intro k
      cases hl : ((tables k).page p i n).getLast?
      case none => exact ⟨1, by simp [walk, hl]⟩
      case some last =>
        have ⟨_, _, hk⟩ := mem_of_mem_page <| List.mem_of_getLast? hl
        have ⟨fuel, hf⟩ := hi (key last) (hk _ rfl) (k + 1)
        refine ⟨fuel + 1, ?_⟩
        simp only [walk, hl]
        split_ifs <;> simp_all
  cases after
  case some i => exact h i k
  case none =>
    cases hl : ((tables k).page p none n).getLast?
    case none => exact ⟨1, by simp [walk, hl]⟩
    case some last =>
      have ⟨fuel, hf⟩ := h (key last) (k + 1)
      refine ⟨fuel + 1, ?_⟩
      simp only [walk, hl]
      split_ifs <;> simp_all

end Walk

end Table
