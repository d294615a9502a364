import OsintCore.Table.Fold

-- The entries of an object: values of `V` by their names.

instance {V : Type} : Keyed (String × V) String := ⟨Prod.fst⟩

abbrev Fields (V : Type) := Table (String × V)

namespace Fields

variable {V : Type} {m m' e : Fields V} {name k : String} {v : V}

@[simp]
theorem key_eq (f : String × V) : Keyed.key f = f.fst :=
  rfl

def value (m : Fields V) (name : String) : Option V :=
  m.get? name |>.map Prod.snd

theorem value_eq_some : m.value name = some v ↔ (name, v) ∈ m := by
  simp only [value, Option.map_eq_some_iff, Table.get?_eq_some, key_eq]
  constructor
  case mp  => exact fun ⟨f, ⟨hm, hk⟩, hv⟩ => by rwa [← hk, ← hv]
  case mpr => exact fun h => ⟨_, ⟨h, rfl⟩, rfl⟩

theorem ext_value (h : ∀ name, m.value name = m'.value name) : m = m' :=
  Table.ext_mem fun f => by rw [← Prod.mk.eta (p := f), ← value_eq_some, ← value_eq_some, h]

@[simp]
theorem value_empty : (∅ : Fields V).value name = none :=
  rfl

def single (name : String) (v : V) : Fields V :=
  (∅ : Fields V).put (name, v)

@[simp]
theorem value_single : (single name v).value k = if name = k then some v else none := by
  simp only [value, single, Table.get?_put, key_eq, Table.get?_empty]
  split_ifs <;> rfl

-- `Map::remove`, `Map::insert`

@[simp]
theorem value_erase : value (m.erase name) k = if name = k then none else m.value k := by
  simp only [value, Table.get?_erase]
  split_ifs <;> rfl

@[simp]
theorem value_put : value (m.put (name, v)) k = if name = k then some v else m.value k := by
  simp only [value, Table.get?_put, key_eq]
  split_ifs <;> rfl

-- All entries of the second map are inserted into the first one.
def overlay (m e : Fields V) : Fields V :=
  e.rows.foldl .put m

@[simp]
theorem value_overlay : (m.overlay e).value k = (e.value k).or (m.value k) := by
  have hu : ∀ a ∈ e.rows, ∀ b ∈ e.rows, Keyed.key a = Keyed.key b → a = b :=
    fun _ ha _ hb => Table.eq_of_key_eq ha hb
  apply Option.ext
  intro v
  rw [value_eq_some, overlay, Table.mem_foldl_put hu]
  cases he : e.value k
  case some w =>
    have hw := value_eq_some.mp he
    simp only [Option.some_or, Option.some.injEq]
    constructor
    case mp =>
      intro h
      cases h
      case inl h => exact (Prod.mk.inj <| Table.eq_of_key_eq hw h rfl).right
      case inr h => exact absurd rfl (h.right (k, w) hw)
    case mpr => exact fun h => .inl (h ▸ hw)
  case none =>
    have hn (v) : (k, v) ∉ e.rows := fun h => by simp [value_eq_some.mpr h] at he
    simp only [Option.none_or, value_eq_some, hn, false_or, and_iff_left_iff_imp]
    intro _ a ha hk
    exact hn a.snd (by rwa [← show a.fst = k from hk])

-- What is left without the given names.
def without (m : Fields V) (names : List String) : Fields V :=
  m.filter (·.fst ∉ names)

@[simp]
theorem value_without {names : List String} :
    (m.without names).value k = if k ∈ names then none else m.value k := by
  apply Option.ext
  intro v
  rw [value_eq_some, without, Table.mem_filter]
  split_ifs with h <;> simp [h, value_eq_some]

@[simp]
theorem without_nil : m.without [] = m :=
  ext_value fun k => by simp

-- Of the entries of a list, the first one with a name counts.
def ofList (l : List (String × V)) : Fields V :=
  l.foldr (fun f m => m.put f) ∅

@[simp]
theorem value_ofList {l : List (String × V)} : (ofList l).value k = l.lookup k := by
  induction l
  case nil => rfl
  case cons f l hi =>
    have hf : (ofList (f :: l)).value k = if f.fst = k then some f.snd else (ofList l).value k :=
      value_put
    rw [hf, hi, List.lookup_cons]
    by_cases h : k = f.fst
    case pos => simp [h]
    case neg => rw [if_neg (Ne.symm h), beq_false_of_ne h]

@[simp]
theorem ofList_rows : ofList m.rows = m := by
  have hu : ∀ a ∈ m.rows.reverse, ∀ b ∈ m.rows.reverse, Keyed.key a = Keyed.key b → a = b :=
    fun _ ha _ hb => Table.eq_of_key_eq (List.mem_reverse.mp ha) (List.mem_reverse.mp hb)
  apply Table.ext_mem
  intro f
  rw [ofList, List.foldr_eq_foldl_reverse, Table.mem_foldl_put hu]
  simp only [List.mem_reverse, Table.not_mem_empty, false_and, or_false]
  rfl

end Fields
