import OsintCore.Api.Pagination

namespace Uuid

theorem hexValue_hexChar : ∀ n < 16, hexValue (hexChar n) = some n := by
  decide

@[simp]
theorem length_hexDigits {k n : Nat} : (hexDigits k n).length = k := by
  induction k generalizing n
  case zero => rfl
  case succ k hi => simp [hexDigits, hi]

theorem foldlM_hexDigits {k n m : Nat} (h : n < 16 ^ k) :
    (hexDigits k n).foldlM (fun n c => (16 * n + ·) <$> hexValue c) m = some (m * 16 ^ k + n) := by
  induction k generalizing n
  case zero => simp_all [hexDigits]
  case succ k hi =>
    have hd : n / 16 < 16 ^ k := by
      rw [Nat.div_lt_iff_lt_mul (by decide)]
      omega
    have hm : n % 16 < 16 := Nat.mod_lt _ (by decide)
    rw [hexDigits, List.foldlM_append, hi hd]
    simp only [List.foldlM_cons, hexValue_hexChar _ hm, List.foldlM_nil, pow_succ, ← mul_assoc,
      Option.map_eq_map, Option.map_some, Option.bind_eq_bind, Option.bind_some, Option.pure_def]
    congr 1
    omega

theorem parseSimple_hexDigits {id : Uuid} (h : id < 2 ^ 128) :
    parseSimple (hexDigits 32 id) = some id := by
  have hf := foldlM_hexDigits (k := 32) (m := 0) (n := id) (by omega)
  rw [parseSimple, if_pos length_hexDigits, hf]
  simp

theorem parseHyphenated_groups {a b c d e : List Char} (ha : a.length = 8) (hb : b.length = 4)
    (hc : c.length = 4) (hd : d.length = 4) (he : e.length = 12) :
    parseHyphenated (a ++ '-' :: b ++ '-' :: c ++ '-' :: d ++ '-' :: e) =
      parseSimple (a ++ b ++ c ++ d ++ e) := by
  have hl : (a ++ '-' :: b ++ '-' :: c ++ '-' :: d ++ '-' :: e).length = 36 := by simp [*]
  rw [parseHyphenated, if_pos]
  case hc => simp [*, List.getElem?_append]
  simp (disch := omega) [*, List.drop_append, List.drop_eq_nil_of_le]

theorem take_append_drop_drop {α : Type} (l : List α) (m n : Nat) :
    (l.drop m).take n ++ l.drop (m + n) = l.drop m := by
  rw [← List.drop_drop, List.take_append_drop]

-- A UUID is read from its own text.
theorem parseStr_toText {id : Uuid} (h : id < 2 ^ 128) : parseStr (toText id) = some id := by
  have hl : (toText id).toList.length = 36 := by simp [toText]
  rw [parseStr, if_neg (by omega), if_pos hl, toText, String.toList_ofList]
  rw [parseHyphenated_groups (by simp) (by simp) (by simp) (by simp) (by simp)]
  have hd : (hexDigits 32 id).take 8 ++ ((hexDigits 32 id).drop 8).take 4 ++
      ((hexDigits 32 id).drop 12).take 4 ++ ((hexDigits 32 id).drop 16).take 4 ++
      (hexDigits 32 id).drop 20 = hexDigits 32 id := by
    simp only [List.append_assoc, take_append_drop_drop _ 16 4, take_append_drop_drop _ 12 4,
      take_append_drop_drop _ 8 4, List.take_append_drop]
  rw [hd, parseSimple_hexDigits h]

theorem toText_ne_empty {id : Uuid} : toText id ≠ "" := by
  rw [ne_eq, ← String.toList_inj]
  simp [toText]

end Uuid

theorem decodeCursor_toText (base64 : Base64) {id : Uuid} (h : id < 2 ^ 128) :
    decodeCursor base64 (Uuid.toText id) = .ok id := by
  simp [decodeCursor, Uuid.parseStr_toText h]

section

variable {α : Type} [Keyed α Uuid] {base64 : Base64} {tables : Nat → Table α} {filter : α → Bool}

def Pagination.clamped (limit : Option Nat) : Nat :=
  max 1 (min (limit.getD defaultLimit) maxLimit)

-- The cursor of the API for the key behind which a page starts.
def Pagination.cursorOf (after : Option Uuid) : Option String :=
  after.map Uuid.toText

theorem Pagination.decode_cursorOf {limit : Option Nat} {after : Option Uuid}
    (h : ∀ i ∈ after, i < 2 ^ 128) :
    Pagination.decode base64 { cursor := cursorOf after, limit } = .ok (after, clamped limit) := by
  cases after
  case none => rfl
  case some id =>
    have hc := decodeCursor_toText base64 (h id rfl)
    simp only [decode, cursorOf, Option.map_some, if_neg Uuid.toText_ne_empty, hc]
    rfl

theorem Pagination.clamped_le (limit : Option Nat) : clamped limit ≤ 100 := by
  simp only [clamped, maxLimit]
  omega

-- The limit is clamped to the same range twice.
theorem clampLimit_clamped {limit : Option Nat} :
    Store.clampLimit (Pagination.clamped limit) = Pagination.clamped limit := by
  simp only [Store.clampLimit, Pagination.clamped, Pagination.maxLimit]
  omega

-- With the cursors of the API a client walks through the pages of the tables.
theorem followCursors_eq (base64 : Base64) (filter : α → Bool) (limit : Option Nat)
    (hid : ∀ k, ∀ a ∈ tables k, Keyed.key a < 2 ^ 128) (fuel k : Nat) (after : Option Uuid)
    (ha : ∀ i ∈ after, i < 2 ^ 128) :
    followCursors base64 tables filter limit fuel k (Pagination.cursorOf after) =
      Except.ok <$> Table.walk tables filter (Pagination.clamped limit) fuel k after := by
  induction fuel generalizing k after
  case zero => rfl
  case succ fuel hi =>
    have hl : listHandler base64 (tables k) filter { cursor := Pagination.cursorOf after, limit } =
        .ok (.fromItems ((tables k).page filter after (Pagination.clamped limit))
          (Pagination.clamped limit) Keyed.key) := by
      rw [listHandler, Pagination.decode_cursorOf ha]
      exact congrArg (fun n => Except.ok (CursorPage.fromItems (Table.page _ _ _ n) _ _))
        clampLimit_clamped
    have hn : ((tables k).page filter after (Pagination.clamped limit)).length % 2 ^ 32 =
        ((tables k).page filter after (Pagination.clamped limit)).length := by
      have := (tables k).length_page_le filter after (Pagination.clamped limit)
      have := Pagination.clamped_le limit
      omega
    simp only [followCursors, hl, CursorPage.fromItems, Table.walk, hn]
    split_ifs
    case neg => rfl
    case pos =>
      cases hg : ((tables k).page filter after (Pagination.clamped limit)).getLast?
      case none => rfl
      case some last =>
        have hm := (Table.mem_of_mem_page <| List.mem_of_getLast? hg).left
        have hw := hi (k + 1) (some (Keyed.key last)) fun i h => by
          cases h
          exact hid k last hm
        simp only [Option.map_some]
        rw [Pagination.cursorOf, Option.map_some] at hw
        rw [hw]
        simp [Function.comp_def, Except.map]

theorem Pagination.clamped_pos {limit : Option Nat} : 0 < clamped limit := by
  simp only [clamped]
  omega

-- A cursor which the API hands out leads behind the last row of its page.
theorem CursorPage.decode_nextCursor {items : List α} {limit : Nat} {cursor : String}
    (hid : ∀ a ∈ items, Keyed.key a < 2 ^ 128)
    (h : (CursorPage.fromItems items limit Keyed.key).nextCursor = some cursor) :
    ∃ last, items.getLast? = some last ∧ decodeCursor base64 cursor = .ok (Keyed.key last) := by
  simp only [fromItems] at h
  split_ifs at h
  have ⟨last, hl, hc⟩ := Option.map_eq_some_iff.mp h
  exact ⟨last, hl, hc ▸ decodeCursor_toText base64 (hid last <| List.mem_of_getLast? hl)⟩

-- Whatever happens to the tables between the pages, the walk comes to an end, and reaches each row
-- once which is there and matches as long as the walk goes on.
theorem followCursors_complete (base64 : Base64) (tables : Nat → Table α) (filter : α → Bool)
    (limit : Option Nat) (hid : ∀ k, ∀ a ∈ tables k, Keyed.key a < 2 ^ 128) :
    (∃ pages rows, followCursors base64 tables filter limit pages 0 none = some (.ok rows)) ∧
    (∀ pages rows, followCursors base64 tables filter limit pages 0 none = some (.ok rows) →
      rows.Pairwise (Keyed.key · > Keyed.key ·) ∧
      (∀ a ∈ rows, (∃ k, a ∈ tables k) ∧ filter a) ∧
      ∀ id, (∀ k < pages, ∃ a ∈ tables k, Keyed.key a = id ∧ filter a) →
        (rows.map Keyed.key).count id = 1) ∧
    ∀ (items : List α) limit cursor, (∀ a ∈ items, Keyed.key a < 2 ^ 128) →
      (CursorPage.fromItems items limit Keyed.key).nextCursor = some cursor →
      ∃ last, items.getLast? = some last ∧ decodeCursor base64 cursor = .ok (Keyed.key last) := by
  have hf (pages) := followCursors_eq base64 filter limit hid pages 0 none nofun
  refine ⟨?ends, ?all, fun _ _ _ hi h => CursorPage.decode_nextCursor hi h⟩
  case ends =>
    have ⟨pages, h⟩ := Table.walk_terminates tables filter (Pagination.clamped limit) 0 none
    have ⟨rows, h⟩ := Option.isSome_iff_exists.mp h
    exact ⟨pages, rows, (hf pages).trans <| by rw [h]; rfl⟩
  case all =>
    intro pages rows h
    have ⟨_, h, hr⟩ := Option.map_eq_some_iff.mp <| (hf pages).symm.trans h
    cases hr
    refine ⟨Table.walk_sorted h, fun a ha => ?_, fun id hi => ?_⟩
    case refine_1 =>
      have ⟨⟨k, _, hm⟩, hp, _⟩ := Table.mem_of_mem_walk h ha
      exact ⟨⟨k, hm⟩, hp⟩
    case refine_2 =>
      have ⟨a, ha, he⟩ := Table.walk_complete Pagination.clamped_pos h
        (fun j _ hj => hi j (by omega)) nofun
      have hn : (rows.map Keyed.key).Nodup :=
        List.pairwise_map.mpr <| (Table.walk_sorted h).imp fun h => ne_of_gt h
      exact List.count_eq_one_of_mem hn <| he ▸ List.mem_map_of_mem ha

end

def noBase64 : Base64 where
  urlSafeNoPad _ := none
  urlSafe _      := none

def threeSources : Table Source where
  rows   := [⟨1, none⟩, ⟨2, none⟩, ⟨3, none⟩]
  sorted := by decide

-- The second source is deleted while a client stands at it.
theorem followCursors_complete_threeSources :
    (∃ pages rows, followCursors noBase64
      (fun k => if k < 2 then threeSources else threeSources.erase 2) (fun _ => true) (some 1)
      pages 0 none = some (.ok rows)) ∧
    decodeCursor noBase64 (Uuid.toText 1) = .ok 1 := by
  have ⟨he, _, hd⟩ := followCursors_complete noBase64
    (fun k => if k < 2 then threeSources else threeSources.erase 2) (fun _ => true) (some 1)
    (by intro k; split_ifs <;> decide)
  have ⟨last, hl, hd⟩ := hd [⟨1, none⟩] 1 (Uuid.toText 1) (by decide) rfl
  cases hl
  exact ⟨he, hd⟩
