import OsintCore.Codec.Fields

variable {V α β : Type} {isNull : V → Bool}

-- How the value of a field is written and read. Nothing is written for some values of an optional
-- field, which may also be absent or null.
structure FieldCodec (isNull : V → Bool) (α : Type) where
  optional      : Bool
  valid         : α → Prop
  decode        : Option V → Option α
  encode        : α → Option V
  decode_encode : ∀ {a}, valid a → decode (encode a) = some a
  decode_valid  : ∀ {v a}, decode v = some a → valid a
  kept          : ∀ {v a}, decode (some v) = some a → (encode a = none ↔ optional ∧ isNull v)

namespace FieldCodec

-- A field which must be there.
def required (decode : V → Option α) (encode : α → V) (valid : α → Prop)
    (decode_encode : ∀ {a}, valid a → decode (encode a) = some a)
    (decode_valid : ∀ {v a}, decode v = some a → valid a) : FieldCodec isNull α where
  optional      := false
  valid         := valid
  decode v      := v.bind decode
  encode a      := some (encode a)
  decode_encode := decode_encode
  decode_valid  := fun h => by
    have ⟨_, _, h⟩ := Option.bind_eq_some_iff.mp h
    exact decode_valid h
  kept _        := by simp

def decodeOptional (isNull : V → Bool) (decode : V → Option α) : Option V → Option (Option α)
  | none   => some none
  | some v => if isNull v then some none else (decode v).map some

-- A field which is left out if it has no value.
def optionalOf (decode : V → Option α) (encode : α → V)
    (decode_encode : ∀ {a}, decode (encode a) = some a) (encode_ne : ∀ {a}, ¬isNull (encode a)) :
    FieldCodec isNull (Option α) where
  optional       := true
  valid _        := True
  decode         := decodeOptional isNull decode
  encode a       := a.map encode
  decode_valid _ := trivial
  decode_encode  := by
    intro a _
    cases a
    case none   => rfl
    case some a => simp [decodeOptional, encode_ne, decode_encode]
  kept           := by
    intro v a h
    simp only [decodeOptional] at h
    split_ifs at h with hv
    case pos => simp_all
    case neg =>
      have ⟨_, _, h⟩ := Option.map_eq_some_iff.mp h
      simp [← h, hv]

theorem isSome_required {f : FieldCodec isNull α} {decode : V → Option α} {value : Option V}
    (h : f.decode = fun v => v.bind decode) :
    (f.decode value).isSome ↔ ∃ v, value = some v ∧ (decode v).isSome := by
  cases value <;> simp [h]

theorem isSome_optionalOf {f : FieldCodec isNull (Option α)} {decode : V → Option α}
    {value : Option V} (h : f.decode = decodeOptional isNull decode) :
    (f.decode value).isSome ↔ ∀ v, value = some v → ¬isNull v → (decode v).isSome := by
  rw [h]
  cases value
  case none   => simp [decodeOptional]
  case some v => cases hn : isNull v <;> simp [decodeOptional, hn]

end FieldCodec

-- How the fields of a record are written and read. Other names are left alone, and so are the values
-- of optional fields which are null.
structure RecordCodec (isNull : V → Bool) (α : Type) where
  names         : List String
  optional      : List String
  valid         : α → Prop
  decode        : Fields V → Option α
  encode        : α → Fields V
  decode_congr  : ∀ {m m'}, (∀ k ∈ names, m.value k = m'.value k) → decode m = decode m'
  encode_names  : ∀ {a k}, k ∉ names → (encode a).value k = none
  decode_encode : ∀ {a}, valid a → decode (encode a) = some a
  decode_valid  : ∀ {m a}, decode m = some a → valid a
  kept          : ∀ {m a k v}, decode m = some a → k ∈ names → m.value k = some v →
    ((encode a).value k = none ↔ k ∈ optional ∧ isNull v)
  optional_sub  : ∀ k ∈ optional, k ∈ names

namespace RecordCodec

-- A record of one field.
def ofField (name : String) (f : FieldCodec isNull α) : RecordCodec isNull α where
  names         := [name]
  optional      := if f.optional then [name] else []
  valid         := f.valid
  decode m      := f.decode (m.value name)
  encode a      := (f.encode a).elim ∅ (Fields.single name)
  decode_congr  := fun h => by rw [h name List.mem_cons_self]
  encode_names  := by
    intro a k hk
    cases f.encode a
    case none   => rfl
    case some v => simpa using Ne.symm (by simpa using hk)
  decode_encode := by
    intro a ha
    have hv : ((f.encode a).elim ∅ (Fields.single name)).value name = f.encode a := by
      cases f.encode a <;> simp
    rw [hv, f.decode_encode ha]
  decode_valid  := f.decode_valid
  kept          := by
    intro m a k v h hk hv
    obtain rfl : k = name := by simpa using hk
    rw [hv] at h
    have := f.kept h
    cases he : f.encode a <;> cases ho : f.optional <;> simp_all
  optional_sub  := by cases f.optional <;> simp

def both (r : RecordCodec isNull α) (s : RecordCodec isNull β)
    (disjoint : ∀ k ∈ r.names, k ∉ s.names := by simp) : RecordCodec isNull (α × β) where
  names         := r.names ++ s.names
  optional      := r.optional ++ s.optional
  valid p       := r.valid p.fst ∧ s.valid p.snd
  decode m      := (r.decode m).bind fun a => (s.decode m).map fun b => (a, b)
  encode p      := (r.encode p.fst).overlay (s.encode p.snd)
  decode_congr  := by
    intro m m' h
    rw [r.decode_congr fun k hk => h k (List.mem_append_left _ hk),
      s.decode_congr fun k hk => h k (List.mem_append_right _ hk)]
  encode_names  := by
    intro p k hk
    have ⟨hr, hs⟩ := not_or.mp <| List.mem_append.not.mp hk
    simp [r.encode_names hr, s.encode_names hs]
  decode_encode := by
    intro p ⟨hr, hs⟩
    have h₁ : r.decode ((r.encode p.fst).overlay (s.encode p.snd)) = some p.fst := by
      rw [← r.decode_encode hr]
      exact r.decode_congr fun k hk => by simp [s.encode_names (disjoint k hk)]
    have h₂ : s.decode ((r.encode p.fst).overlay (s.encode p.snd)) = some p.snd := by
      rw [← s.decode_encode hs]
      refine s.decode_congr fun k hk => ?_
      have hr : k ∉ r.names := fun h => disjoint k h hk
      simp [r.encode_names hr]
    simp [h₁, h₂]
  decode_valid  := by
    intro m p h
    have ⟨a, ha, h⟩ := Option.bind_eq_some_iff.mp h
    have ⟨b, hb, h⟩ := Option.map_eq_some_iff.mp h
    subst h
    exact ⟨r.decode_valid ha, s.decode_valid hb⟩
  kept          := by
    intro m p k v h hk hv
    have ⟨a, ha, h⟩ := Option.bind_eq_some_iff.mp h
    have ⟨b, hb, h⟩ := Option.map_eq_some_iff.mp h
    subst h
    simp only [Fields.value_overlay, Option.or_eq_none_iff, List.mem_append]
    cases List.mem_append.mp hk
    case inl hk =>
      have hs := disjoint k hk
      have ho : k ∉ s.optional := fun h => hs (s.optional_sub k h)
      simp [s.encode_names hs, ho, r.kept ha hk hv]
    case inr hk =>
      have hr : k ∉ r.names := fun h => disjoint k h hk
      have ho : k ∉ r.optional := fun h => hr (r.optional_sub k h)
      simp [r.encode_names hr, ho, s.kept hb hk hv]
  optional_sub  := by
    intro k hk
    cases List.mem_append.mp hk
    case inl hk => exact List.mem_append_left _ (r.optional_sub k hk)
    case inr hk => exact List.mem_append_right _ (s.optional_sub k hk)

-- The same fields of another type.
def map (r : RecordCodec isNull α) (e : α ≃ β) : RecordCodec isNull β where
  names         := r.names
  optional      := r.optional
  valid b       := r.valid (e.symm b)
  decode m      := (r.decode m).map e
  encode b      := r.encode (e.symm b)
  decode_congr  := fun h => by rw [r.decode_congr h]
  encode_names  := r.encode_names
  decode_encode := fun h => by simp [r.decode_encode h]
  decode_valid  := by
    intro m b h
    have ⟨a, ha, h⟩ := Option.map_eq_some_iff.mp h
    simpa [← h] using r.decode_valid ha
  kept          := by
    intro m b k v h hk hv
    have ⟨a, ha, h⟩ := Option.map_eq_some_iff.mp h
    simpa [← h] using r.kept ha hk hv
  optional_sub  := r.optional_sub

@[simp]
theorem names_ofField {name : String} {f : FieldCodec isNull α} : (ofField name f).names = [name] :=
  (rfl)

@[simp]
theorem valid_ofField {name : String} {f : FieldCodec isNull α} {a : α} :
    (ofField name f).valid a ↔ f.valid a :=
  .rfl

@[simp]
theorem valid_both {r : RecordCodec isNull α} {s : RecordCodec isNull β}
    {h : ∀ k ∈ r.names, k ∉ s.names} {p : α × β} :
    (r.both s h).valid p ↔ r.valid p.fst ∧ s.valid p.snd :=
  .rfl

@[simp]
theorem valid_map {r : RecordCodec isNull α} {e : α ≃ β} {b : β} :
    (r.map e).valid b ↔ r.valid (e.symm b) :=
  .rfl

@[simp]
theorem names_both {r : RecordCodec isNull α} {s : RecordCodec isNull β}
    {h : ∀ k ∈ r.names, k ∉ s.names} : (r.both s h).names = r.names ++ s.names :=
  (rfl)

@[simp]
theorem optional_both {r : RecordCodec isNull α} {s : RecordCodec isNull β}
    {h : ∀ k ∈ r.names, k ∉ s.names} : (r.both s h).optional = r.optional ++ s.optional :=
  (rfl)

@[simp]
theorem names_map {r : RecordCodec isNull α} {e : α ≃ β} : (r.map e).names = r.names :=
  (rfl)

@[simp]
theorem optional_map {r : RecordCodec isNull α} {e : α ≃ β} : (r.map e).optional = r.optional :=
  (rfl)

-- A record is read if each of its fields is.

@[simp]
theorem isSome_ofField {name : String} {f : FieldCodec isNull α} {m : Fields V} :
    ((ofField name f).decode m).isSome ↔ (f.decode (m.value name)).isSome :=
  .rfl

@[simp]
theorem isSome_both {r : RecordCodec isNull α} {s : RecordCodec isNull β}
    {h : ∀ k ∈ r.names, k ∉ s.names} {m : Fields V} :
    ((r.both s h).decode m).isSome ↔ (r.decode m).isSome ∧ (s.decode m).isSome := by
  simp only [both]
  cases r.decode m <;> simp

theorem decode_both {r : RecordCodec isNull α} {s : RecordCodec isNull β}
    {h : ∀ k ∈ r.names, k ∉ s.names} {m : Fields V} {p : α × β} :
    (r.both s h).decode m = some p ↔ r.decode m = some p.fst ∧ s.decode m = some p.snd := by
  obtain ⟨a, b⟩ := p
  simp only [both, Option.bind_eq_some_iff, Option.map_eq_some_iff, Prod.mk.injEq]
  exact ⟨fun ⟨_, hr, _, hs, ha, hb⟩ => ⟨ha ▸ hr, hb ▸ hs⟩, fun ⟨hr, hs⟩ => ⟨a, hr, b, hs, rfl, rfl⟩⟩

@[simp]
theorem isSome_map {r : RecordCodec isNull α} {e : α ≃ β} {m : Fields V} :
    ((r.map e).decode m).isSome ↔ (r.decode m).isSome := by
  simp [map]

-- A record with a catch-all for the other names, whose entries are written last.
section Flatten

variable (r : RecordCodec isNull α) {m : Fields V} {p : α × Fields V}

def decodeFlat (m : Fields V) : Option (α × Fields V) :=
  (r.decode m).map fun a => (a, m.without r.names)

def encodeFlat (p : α × Fields V) : Fields V :=
  (r.encode p.fst).overlay p.snd

-- The record has a value which something is read as, and the catch-all has none of its names.
def ValidFlat (p : α × Fields V) : Prop :=
  r.valid p.fst ∧ ∀ k ∈ r.names, p.snd.value k = none

variable {r}

theorem decodeFlat_valid (h : r.decodeFlat m = some p) : r.ValidFlat p := by
  have ⟨a, ha, h⟩ := Option.map_eq_some_iff.mp h
  subst h
  exact ⟨r.decode_valid ha, fun k hk => by simp [hk]⟩

theorem decodeFlat_encodeFlat (h : r.ValidFlat p) (hm : ∀ k, m.value k = (r.encodeFlat p).value k) :
    r.decodeFlat m = some p := by
  have hr : r.decode m = some p.fst := by
    rw [← r.decode_encode h.left]
    exact r.decode_congr fun k hk => by simp [hm, encodeFlat, h.right k hk]
  have he : m.without r.names = p.snd := by
    apply Fields.ext_value
    intro k
    by_cases hk : k ∈ r.names
    case pos => simp [hk, h.right k hk]
    case neg => simp [hk, hm, encodeFlat, r.encode_names hk]
  rw [decodeFlat, hr, Option.map_some, he]

-- Nothing is lost but null in an optional field.
theorem kept_flat {k : String} {v : V} (h : r.decodeFlat m = some p) (hv : m.value k = some v) :
    (r.encodeFlat p).value k = none ↔ k ∈ r.optional ∧ isNull v := by
  have ⟨a, ha, h⟩ := Option.map_eq_some_iff.mp h
  subst h
  by_cases hk : k ∈ r.names
  case pos => simp [encodeFlat, hk, r.kept ha hk hv]
  case neg =>
    have ho : k ∉ r.optional := fun h => hk (r.optional_sub k h)
    simp [encodeFlat, hk, hv, ho]

end Flatten

end RecordCodec

-- A flattened record behind an entry which says of which type it is.
structure TaggedCodec (isNull : V → Bool) (typeName : String) (α : Type) where
  tag      : V
  Own      : Type
  record   : RecordCodec isNull Own
  equiv    : Own × Fields V ≃ α
  untagged : typeName ∉ record.names

namespace TaggedCodec

variable {typeName : String} (c : TaggedCodec isNull typeName α) {m : Fields V} {a : α}

def decode (m : Fields V) : Option α :=
  c.record.decodeFlat (m.erase typeName) |>.map c.equiv

def encode (a : α) : Fields V :=
  (Fields.single typeName c.tag).overlay (c.record.encodeFlat (c.equiv.symm a))

def extra (a : α) : Fields V :=
  (c.equiv.symm a).snd

def Valid (a : α) : Prop :=
  c.record.valid (c.equiv.symm a).fst ∧ ∀ k ∈ typeName :: c.record.names, (c.extra a).value k = none

variable {c}

theorem decode_valid (h : c.decode m = some a) : c.Valid a := by
  have ⟨p, hp, h⟩ := Option.map_eq_some_iff.mp h
  obtain rfl : p = c.equiv.symm a := by simp [← h]
  have ⟨hv, hn⟩ := RecordCodec.decodeFlat_valid hp
  refine ⟨hv, List.forall_mem_cons.mpr ⟨?_, hn⟩⟩
  have ⟨_, _, he⟩ := Option.map_eq_some_iff.mp hp
  simp [extra, ← he, c.untagged]

-- The fields of the record are read from where they have been.
theorem decode_erase : c.record.decode (m.erase typeName) = c.record.decode m := by
  refine c.record.decode_congr fun k hk => ?_
  have hn : typeName ≠ k := fun h => c.untagged (h ▸ hk)
  simp [hn]

theorem isSome_decode : (c.decode m).isSome ↔ (c.record.decode m).isSome := by
  simp [decode, RecordCodec.decodeFlat, decode_erase]

theorem record_decode (h : c.decode m = some a) :
    c.record.decode m = some (c.equiv.symm a).fst := by
  have ⟨p, hp, h⟩ := Option.map_eq_some_iff.mp h
  have ⟨own, ho, hp⟩ := Option.map_eq_some_iff.mp hp
  rw [← decode_erase, ho, ← h, ← hp, c.equiv.symm_apply_apply]

theorem value_encode {k : String} (h : c.Valid a) : (c.encode a).value k =
    if k = typeName then some c.tag else (c.record.encodeFlat (c.equiv.symm a)).value k := by
  have ht : (c.equiv.symm a).snd.value typeName = none := h.right typeName List.mem_cons_self
  split_ifs with hk
  case pos =>
    subst hk
    simp [encode, RecordCodec.encodeFlat, ht, c.record.encode_names c.untagged]
  case neg => simp [encode, Ne.symm hk]

theorem decode_encode (h : c.Valid a) : c.decode (c.encode a) = some a := by
  have hf : c.record.ValidFlat (c.equiv.symm a) :=
    ⟨h.left, fun k hk => h.right k (List.mem_cons_of_mem _ hk)⟩
  have ht : (c.equiv.symm a).snd.value typeName = none := h.right typeName List.mem_cons_self
  rw [decode, RecordCodec.decodeFlat_encodeFlat hf ?_]
  case _ => simp
  intro k
  rw [Fields.value_erase, value_encode h]
  by_cases hk : typeName = k
  case pos =>
    subst hk
    simp [RecordCodec.encodeFlat, ht, c.record.encode_names c.untagged]
  case neg => simp [hk, Ne.symm hk]

theorem kept {k : String} {v : V} (h : c.decode m = some a) (hv : m.value k = some v) :
    (c.encode a).value k = none ↔ k ∈ c.record.optional ∧ isNull v := by
  rw [value_encode (decode_valid h)]
  split_ifs with hk
  case pos =>
    have ho : typeName ∉ c.record.optional := fun h => c.untagged (c.record.optional_sub _ h)
    simp [hk, ho]
  case neg =>
    have ⟨p, hp, h⟩ := Option.map_eq_some_iff.mp h
    obtain rfl : p = c.equiv.symm a := by simp [← h]
    exact RecordCodec.kept_flat hp (by simpa [Ne.symm hk] using hv)

end TaggedCodec
