import OsintCore.Collector.Dispatch
import OsintCore.Control.Allowance

namespace Collector

def Failing (c : Connector) : Bool :=
  0 < c.errorCount

-- A success which lies further back has a larger key, and no success at all has the largest one.
def successKey (c : Connector) : WithTop ℤᵒᵈ :=
  match c.lastSuccess with
  | some t => WithTop.some <| OrderDual.toDual t
  | none   => ⊤

def fairKey (c : Connector) : ℤ ×ₗ (WithTop ℤᵒᵈ ×ₗ ℕ) :=
  toLex (c.errorCount.toInt, toLex (successKey c, c.id))

section Order

variable {a b c : Connector}

theorem compare_successKey : compare (successKey a) (successKey b) =
    match a.lastSuccess, b.lastSuccess with
    | some x, some y => compare y x
    | some _, none   => .lt
    | none, some _   => .gt
    | none, none     => .eq := by
  unfold successKey
  cases a.lastSuccess <;> cases b.lastSuccess
  case none.none   => exact compare_eq_iff_eq.mpr rfl
  case none.some y => exact compare_gt_iff_gt.mpr <| WithTop.coe_lt_top _
  case some.none x => exact compare_lt_iff_lt.mpr <| WithTop.coe_lt_top _
  case some.some x y =>
    rcases lt_trichotomy x y with h | h | h
    case inl =>
      have hd := WithTop.coe_lt_coe.mpr <| OrderDual.toDual_lt_toDual.mpr h
      exact (compare_gt_iff_gt.mpr hd).trans (compare_gt_iff_gt.mpr h).symm
    case inr.inl =>
      subst h
      exact (compare_eq_iff_eq.mpr rfl).trans (compare_eq_iff_eq.mpr rfl).symm
    case inr.inr =>
      have hd := WithTop.coe_lt_coe.mpr <| OrderDual.toDual_lt_toDual.mpr h
      exact (compare_lt_iff_lt.mpr hd).trans (compare_lt_iff_lt.mpr h).symm

theorem fairOrder_eq : fairOrder a b = compare (fairKey a) (fairKey b) :=
  calc fairOrder a b
    _ = (compare a.errorCount.toInt b.errorCount.toInt).then
          ((compare (successKey a) (successKey b)).then (compare a.id b.id)) :=
      congrArg (fun o : Ordering => (compare a.errorCount.toInt b.errorCount.toInt).then
        (o.then (compare a.id b.id))) compare_successKey.symm
    _ = compare (fairKey a) (fairKey b) := by
      simp only [fairKey, Prod.Lex.compare_def, compareLex, compareOn, ofLex_toLex]

theorem fairOrder_eq_lt : fairOrder a b = .lt ↔ fairKey a < fairKey b := by
  rw [fairOrder_eq, compare_lt_iff_lt]

theorem fairOrder_ne_gt : fairOrder a b ≠ .gt ↔ fairKey a ≤ fairKey b := by
  rw [fairOrder_eq, compare_le_iff_le]

theorem fairKey_id (h : fairKey a = fairKey b) : a.id = b.id :=
  congrArg (fun k => (ofLex (ofLex k).snd).snd) h

theorem fairOrder_trans (h : fairOrder a b = .lt) (h' : fairOrder b c = .lt) :
    fairOrder a c = .lt :=
  fairOrder_eq_lt.mpr <| (fairOrder_eq_lt.mp h).trans (fairOrder_eq_lt.mp h')

theorem fairOrder_irrefl : fairOrder a a ≠ .lt :=
  fun h => lt_irrefl _ <| fairOrder_eq_lt.mp h

theorem fairOrder_total (h : a.id ≠ b.id) : fairOrder a b = .lt ∨ fairOrder b a = .lt := by
  rw [fairOrder_eq_lt, fairOrder_eq_lt]
  exact lt_or_gt_of_ne <| h ∘ fairKey_id

end Order

section Sorting

variable {due due' : List Connector}

instance : Std.Total fun a b : Connector => fairOrder a b ≠ .gt :=
  ⟨fun a b => by
    simp only [fairOrder_ne_gt]
    exact le_total _ _⟩

instance : IsTrans Connector fun a b => fairOrder a b ≠ .gt :=
  ⟨fun _ _ _ h h' => fairOrder_ne_gt.mpr <|
    (fairOrder_ne_gt.mp h).trans (fairOrder_ne_gt.mp h')⟩

theorem sortFair_perm : (sortFair due).Perm due :=
  List.perm_insertionSort _ due

theorem sortFair_sorted (h : (due.map (·.id)).Nodup) :
    (sortFair due).Pairwise (fairOrder · · = .lt) := by
  have hs := List.pairwise_insertionSort (fun a b : Connector => fairOrder a b ≠ .gt) due
  have hn : (sortFair due).Pairwise fun a b => a.id ≠ b.id :=
    List.pairwise_map.mp <| (sortFair_perm.map _).nodup_iff.mpr h
  refine (hs.and hn).imp fun ⟨hle, hne⟩ => fairOrder_eq_lt.mpr ?_
  exact (fairOrder_ne_gt.mp hle).lt_of_ne <| hne ∘ fairKey_id

theorem sortFair_congr (h : (due.map (·.id)).Nodup) (hp : due'.Perm due) :
    sortFair due' = sortFair due := by
  have hn : (due'.map (·.id)).Nodup := (hp.map _).nodup_iff.mpr h
  have hs : (sortFair due').Perm (sortFair due) :=
    sortFair_perm.trans <| hp.trans sortFair_perm.symm
  apply hs.eq_of_pairwise _ (sortFair_sorted hn) (sortFair_sorted h)
  exact fun _ _ _ _ hab hba => absurd (fairOrder_trans hab hba) fairOrder_irrefl

end Sorting

section Loop

variable {cap : Nat} {d : Dispatch} {l : List Connector}

theorem take_of_not_failing {c : Connector} (h : Failing c = false) :
    d.take cap c = { d with dispatch := d.dispatch ++ [c] } :=
  if_neg <| by simpa [Failing] using h

theorem take_of_failing (cap : Nat) (d : Dispatch) {c : Connector} (h : Failing c) :
    d.take cap c = if d.retries ≥ cap then { d with deferred := d.deferred ++ [c] }
      else { d with dispatch := d.dispatch ++ [c], retries := d.retries + 1 } :=
  if_pos <| by simpa [Failing] using h

-- The loop spends what is left of the allowance.
theorem foldl_take (h : d.retries ≤ cap) :
    (l.foldl (Dispatch.take cap) d).dispatch =
      d.dispatch ++ l.admitted Failing (cap - d.retries) ∧
    (l.foldl (Dispatch.take cap) d).deferred =
      d.deferred ++ l.refused Failing (cap - d.retries) := by
  induction l generalizing d
  case nil => simp [List.admitted, List.refused]
  case cons c l hi =>
    rw [List.foldl_cons]
    cases hc : Failing c
    case false =>
      obtain ⟨hd, hr⟩ := hi (d := d.take cap c) <| by rwa [take_of_not_failing hc]
      rw [hd, hr, take_of_not_failing hc, List.admitted_cons_neg hc, List.refused_cons_neg hc]
      simp
    case true =>
      have ht := take_of_failing cap d hc
      by_cases hcap : d.retries ≥ cap
      case pos =>
        rw [if_pos hcap] at ht
        obtain ⟨hd, hr⟩ := hi (d := d.take cap c) <| by rwa [ht]
        have hz : cap - d.retries = 0 := Nat.sub_eq_zero_of_le hcap
        rw [hd, hr, ht, hz, List.admitted_cons_zero hc, List.refused_cons_zero hc]
        simp
      case neg =>
        rw [if_neg hcap] at ht
        have hlt : d.retries < cap := Nat.not_le.mp hcap
        obtain ⟨hd, hr⟩ := hi (d := d.take cap c) <| by rw [ht]; exact hlt
        have hs : cap - d.retries = cap - (d.retries + 1) + 1 := by omega
        rw [hd, hr, ht, hs, List.admitted_cons_succ hc, List.refused_cons_succ hc]
        simp

theorem takeFairDispatch_eq {due : List Connector} {m : Nat} :
    takeFairDispatch due m = ((sortFair due).admitted Failing (max m 1),
      (sortFair due).refused Failing (max m 1)) := by
  have ⟨hd, hr⟩ := foldl_take (d := {}) (l := sortFair due) (Nat.zero_le (max m 1))
  simp only [takeFairDispatch, hd, hr]
  rfl

end Loop

-- What a dispatch owes to the connectors which are due.
structure Fair (due : List Connector) (m : Nat) (d : List Connector × List Connector) : Prop where
  perm     : (d.fst ++ d.snd).Perm due
  healthy  : ∀ c ∈ due, c.errorCount ≤ 0 → c ∈ d.fst
  retries  : d.fst.countP Failing = min (max m 1) (due.countP Failing)
  precedes : ∀ a ∈ d.fst, Failing a → ∀ b ∈ d.snd, fairOrder a b = .lt
  dispatch : d.fst.Pairwise (fairOrder · · = .lt)
  deferred : d.snd.Pairwise (fairOrder · · = .lt)
  stable   : ∀ due', due'.Perm due → takeFairDispatch due' m = d

structure StrictTotal (l : List Connector) : Prop where
  irrefl : ∀ a ∈ l, fairOrder a a ≠ .lt
  trans  : ∀ a ∈ l, ∀ b ∈ l, ∀ c ∈ l, fairOrder a b = .lt → fairOrder b c = .lt →
    fairOrder a c = .lt
  total  : ∀ a ∈ l, ∀ b ∈ l, a.id ≠ b.id → fairOrder a b = .lt ∨ fairOrder b a = .lt

theorem takeFairDispatch_fair {due : List Connector} (h : (due.map (·.id)).Nodup) (m : Nat) :
    Fair due m (takeFairDispatch due m) ∧ StrictTotal due := by
  have hp : (sortFair due).Perm due := sortFair_perm
  have hs := sortFair_sorted h
  constructor
  case right =>
    exact ⟨fun _ _ => fairOrder_irrefl, fun _ _ _ _ _ _ => fairOrder_trans,
      fun _ _ _ _ => fairOrder_total⟩
  case left =>
    rw [takeFairDispatch_eq]
    constructor
    case perm     => exact List.admitted_append_refused_perm.trans hp
    case dispatch => exact hs.sublist List.admitted_sublist
    case deferred => exact hs.sublist List.refused_sublist
    case precedes => exact fun _ ha hf _ hb => List.admitted_before_refused hs ha hf hb
    case retries  => rw [List.countP_admitted, hp.countP_eq]
    case healthy  =>
      intro c hc hn
      apply List.mem_admitted_of_free (hp.mem_iff.mpr hc)
      simpa [Failing] using hn
    case stable =>
      intro due' hd
      rw [takeFairDispatch_eq, sortFair_congr h hd]

namespace Sample

def dueConnectors : List Connector :=
  [failing 4 5, failing 3 1, failing 1 0, failing 2 1]

end Sample

theorem takeFairDispatch_fair_dueConnectors :
    Fair Sample.dueConnectors 2 (takeFairDispatch Sample.dueConnectors 2) ∧
      StrictTotal Sample.dueConnectors :=
  takeFairDispatch_fair (by decide) 2

end Collector
