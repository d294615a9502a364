import OsintCore.Search.Index

namespace SearchIndex

variable {index : SearchIndex} {id : Uuid} {name : String} {documents : List SearchDocument}

def fieldOf (index : SearchIndex) (id : Uuid) (name : String) : Option Json :=
  index id >>= (· name)

def upsertAll (index : SearchIndex) (documents : List SearchDocument) : SearchIndex :=
  documents.foldl upsertFields index

-- The last document of this id which has the field decides.
def latest (documents : List SearchDocument) (id : Uuid) (name : String) : Option Json :=
  documents.filter (·.id = id) |>.reverse |>.findSome? (·.body.lookup name)

-- An index is known by its documents and their fields.
theorem ext_fieldOf {index index' : SearchIndex}
    (hs : ∀ id, (index id).isSome = (index' id).isSome)
    (hf : ∀ id name, index.fieldOf id name = index'.fieldOf id name) : index = index' := by
  funext id
  have hs := hs id
  have hf := hf id
  cases h : index id <;> cases h' : index' id <;> simp [fieldOf, h, h'] at hs hf ⊢
  case some.some => exact funext hf

theorem isSome_upsertFields {d : SearchDocument} :
    (index.upsertFields d id).isSome = (d.id = id ∨ (index id).isSome) := by
  by_cases h : d.id = id
  case pos => simp [upsertFields, h]
  case neg => simp [upsertFields, h, Function.update_of_ne (Ne.symm h)]

theorem fieldOf_upsertFields {d : SearchDocument} : (index.upsertFields d).fieldOf id name =
    ((if d.id = id then d.body.lookup name else none) <|> index.fieldOf id name) := by
  by_cases h : d.id = id
  case pos =>
    subst h
    cases hi : index d.id <;> simp [upsertFields, fieldOf, SearchSource.merge, hi]
  case neg => simp [upsertFields, fieldOf, h, Function.update_of_ne (Ne.symm h)]

theorem isSome_upsertAll :
    (index.upsertAll documents id).isSome = ((∃ d ∈ documents, d.id = id) ∨ (index id).isSome) := by
  induction documents generalizing index
  case nil            => simp [upsertAll]
  case cons d docs hi =>
    have hi := @hi (index.upsertFields d)
    simp only [upsertAll, List.foldl_cons] at hi ⊢
    simp only [hi, isSome_upsertFields, List.mem_cons, exists_eq_or_imp, or_assoc, or_left_comm]

theorem latest_cons {d : SearchDocument} : latest (d :: documents) id name =
    (latest documents id name <|> if d.id = id then d.body.lookup name else none) := by
  by_cases h : d.id = id <;> simp [latest, h, List.findSome?_append]

theorem fieldOf_upsertAll : (index.upsertAll documents).fieldOf id name =
    (latest documents id name <|> index.fieldOf id name) := by
  induction documents generalizing index
  case nil            => simp [upsertAll, latest]
  case cons d docs hi =>
    have hi := @hi (index.upsertFields d)
    simp only [upsertAll, List.foldl_cons] at hi ⊢
    rw [hi, fieldOf_upsertFields, latest_cons]
    cases latest docs id name <;> simp

theorem latest_eq_none : latest documents id name = none ↔
    ∀ d ∈ documents, d.id = id → d.body.lookup name = none := by
  simp [latest, List.findSome?_eq_none_iff]

theorem upsertAll_of_ne (h : ∀ d ∈ documents, d.id ≠ id) : index.upsertAll documents id = index id := by
  induction documents generalizing index
  case nil            => rfl
  case cons d docs hi =>
    have hd : index.upsertFields d id = index id :=
      Function.update_of_ne (h d List.mem_cons_self).symm _ _
    exact (hi fun d hd => h d (List.mem_cons_of_mem _ hd)).trans hd

-- The items of a request which are not refused.
def accepted (documents : List SearchDocument) (refused : Nat → Option Nat) : List SearchDocument :=
  documents.zipIdx.filter (fun (_, i) => (refused i).isNone) |>.map Prod.fst

theorem applyItems_eq {refused : Nat → Option Nat} :
    index.applyItems documents refused = index.upsertAll (accepted documents refused) := by
  have h (l : List (SearchDocument × Nat)) (index : SearchIndex) :
      l.foldl (fun index (d, i) => if (refused i).isSome then index else upsertFields index d) index =
        index.upsertAll ((l.filter fun (_, i) => (refused i).isNone).map Prod.fst) := by
    induction l generalizing index
    case nil          => rfl
    case cons x l hi  =>
      cases hr : refused x.snd <;> simp [hi, hr, upsertAll]
  exact h _ _

theorem mem_of_accepted {refused : Nat → Option Nat} {d : SearchDocument}
    (h : d ∈ accepted documents refused) : d ∈ documents := by
  have ⟨⟨_, i⟩, hm, he⟩ := List.mem_map.mp h
  subst he
  exact List.fst_mem_of_mem_zipIdx (List.mem_of_mem_filter hm)

-- A document none of whose items is refused has them all applied, in their order.
theorem filter_accepted {refused : Nat → Option Nat}
    (h : ∀ failure ∈ collectBulkFailures documents refused, failure.id ≠ id) :
    (accepted documents refused).filter (·.id = id) = documents.filter (·.id = id) := by
  have hd : documents.filter (·.id = id) =
      (documents.zipIdx.filter ((fun d => decide (d.id = id)) ∘ Prod.fst)).map Prod.fst := by
    rw [← List.filter_map, List.zipIdx_map_fst]
  rw [hd, accepted, List.filter_map, List.filter_filter]
  apply congrArg (List.map Prod.fst)
  apply List.filter_congr
  intro ⟨d, i⟩ hd
  cases hr : refused i
  case none => simp [hr]
  case some status =>
    have := h ⟨d.id, status⟩ <| List.mem_filterMap.mpr ⟨(d, i), by simpa using hd, by simp [hr]⟩
    simpa [hr] using this

-- All items of the documents which had one refused are sent again, the ones which were applied too.
-- What has been applied out of order is thereby put right.
theorem upsertAll_retry (index : SearchIndex) (ids : List Uuid) {refused : Nat → Option Nat}
    (h : ∀ failure ∈ collectBulkFailures documents refused, failure.id ∈ ids) :
    (index.applyItems documents refused).upsertAll (documents.filter (·.id ∈ ids)) =
      index.upsertAll documents := by
  have hn {id} (hi : id ∉ ids) :
      (accepted documents refused).filter (·.id = id) = documents.filter (·.id = id) :=
    filter_accepted fun failure hf he => hi (he ▸ h failure hf)
  rw [applyItems_eq]
  apply ext_fieldOf
  case hs =>
    intro id
    apply Bool.eq_iff_iff.mpr
    simp only [isSome_upsertAll, List.mem_filter, decide_eq_true_eq]
    constructor
    case mp =>
      rintro (⟨d, hd, he⟩ | ⟨d, hd, he⟩ | hi)
      · exact .inl ⟨d, hd.left, he⟩
      · exact .inl ⟨d, mem_of_accepted hd, he⟩
      · exact .inr hi
    case mpr =>
      rintro (⟨d, hd, rfl⟩ | hi)
      · by_cases hm : d.id ∈ ids
        case pos => exact .inl ⟨d, ⟨hd, hm⟩, rfl⟩
        case neg =>
          have hd : d ∈ (accepted documents refused).filter (·.id = d.id) := by simp [hn hm, hd]
          exact .inr <| .inl ⟨d, List.mem_of_mem_filter hd, rfl⟩
      · exact .inr <| .inr hi
  case hf =>
    intro id name
    rw [fieldOf_upsertAll, fieldOf_upsertAll, fieldOf_upsertAll]
    by_cases hi : id ∈ ids
    case pos =>
      have hf : latest (documents.filter (·.id ∈ ids)) id name = latest documents id name := by
        have hp : (documents.filter (·.id ∈ ids)).filter (·.id = id) =
            documents.filter (·.id = id) := by
          rw [List.filter_filter]
          exact List.filter_congr fun d _ => by by_cases hd : d.id = id <;> simp [hd, hi]
        simp only [latest, hp]
      cases hl : latest documents id name
      case some => simp [hf, hl]
      case none =>
        have ha : latest (accepted documents refused) id name = none :=
          latest_eq_none.mpr fun d hd => latest_eq_none.mp hl d (mem_of_accepted hd)
        simp [hf, hl, ha]
    case neg =>
      have hf : latest (documents.filter (·.id ∈ ids)) id name = none := by
        refine latest_eq_none.mpr fun d hd he => ?_
        have := (List.mem_filter.mp hd).right
        exact absurd (he ▸ of_decide_eq_true this) hi
      have ha : latest (accepted documents refused) id name = latest documents id name := by
        simp only [latest, hn hi]
      simp [hf, ha]

end SearchIndex
