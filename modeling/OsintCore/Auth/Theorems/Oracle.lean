import OsintCore.Auth.Token
import OsintCore.Control.Except
import OsintCore.Objects.Theorems.Text

namespace Auth

variable {lib : Argon2} {c : Call} {s s' : Table ApiTokenRecord} {token : String}

-- The secret belongs to the stored hash.
def Argon2.Verifies (lib : Argon2) (secret hash : String) : Prop :=
  ∃ parsed, lib.new hash = .ok parsed ∧ lib.verifyPassword secret parsed = .ok ()

theorem verifySecret_eq_true {secret hash : String} :
    verifySecret lib secret hash = .ok true ↔ lib.Verifies secret hash := by
  unfold verifySecret Argon2.Verifies
  split
  case h_1 hn => simp [hn]
  case h_2 parsed hn =>
    simp only [hn, Except.ok.injEq, exists_eq_left']
    split <;> simp_all

-- What an answer tells about the record of a presented token, apart from refusing it.
inductive Tell
  | nothing | revoked | expired | broken
  deriving DecidableEq

def tell (lib : Argon2) (now : Timestamp) (s : Table ApiTokenRecord) (p : PresentedToken) : Tell :=
  match s.get? p.id with
  | none        => .nothing
  | some record =>
    if record.revokedAt.isSome then .revoked
    else if record.expiresAt.any (· ≤ now) then .expired
    else match verifySecret lib p.secret record.secretHash with
    | .error _ => .broken
    | .ok _    => .nothing

def Tell.answer : Tell → Resources.ApiError
  | nothing => invalidToken
  | revoked => SecurityError.tokenRevoked.toApiError
  | expired => SecurityError.tokenExpired.toApiError
  | broken  => (SecurityError.tokenHash "").toApiError

theorem Tell.answer_injective : Function.Injective Tell.answer := by
  intro t t' h
  cases t <;> cases t' <;> first | rfl | exact absurd h (by decide)

theorem tokenHash_toApiError {message : String} :
    (SecurityError.tokenHash message).toApiError = Tell.broken.answer :=
  rfl

theorem verifySecret_eq_error {secret hash : String} {err : SecurityError}
    (h : verifySecret lib secret hash = .error err) : err.toApiError = Tell.broken.answer := by
  unfold verifySecret at h
  split at h
  case h_1 =>
    cases h
    exact tokenHash_toApiError
  case h_2 =>
    split at h
    case h_1 => cases h
    case h_2 => cases h
    case h_3 =>
      cases h
      exact tokenHash_toApiError

-- The presented secret is not the one of the record, if there is one.
def WrongSecret (lib : Argon2) (s : Table ApiTokenRecord) (p : PresentedToken) : Prop :=
  ∀ record, s.get? p.id = some record → ¬lib.Verifies p.secret record.secretHash

theorem authenticate_wrongSecret {p : PresentedToken} (hp : parsePresentedToken token = .ok p)
    (hw : WrongSecret lib s p) : (authenticateApiToken lib c s token).fst =
      .error (c.storeError.elim (tell lib c.now s p).answer SecurityError.toApiError) := by
  unfold authenticateApiToken tell
  simp only [hp]
  cases c.storeError
  case some => rfl
  case none =>
    simp only [Option.elim]
    cases hs : s.get? p.id
    case none => rfl
    case some record =>
      simp only [ApiTokenRecord.ensureUsable]
      by_cases hr : record.revokedAt.isSome
      case pos => simp [hr, Tell.answer]
      case neg =>
        by_cases he : record.expiresAt.any (· ≤ c.now)
        case pos => simp [hr, he, Tell.answer]
        case neg =>
          simp only [hr, he]
          cases hv : verifySecret lib p.secret record.secretHash
          case error err => simpa using verifySecret_eq_error hv
          case ok b =>
            cases b
            case false => rfl
            case true  => exact absurd (verifySecret_eq_true.mp hv) (hw record hs)

theorem splitDot_eq_some {l front back : List Char} (h : splitDot l = some (front, back)) :
    l = front ++ '.' :: back ∧ '.' ∉ front := by
  induction l generalizing front
  case nil => cases h
  case cons c l hi =>
    unfold splitDot at h
    split at h
    case isTrue hc =>
      cases h
      exact ⟨by rw [hc]; rfl, List.not_mem_nil⟩
    case isFalse hc =>
      have ⟨⟨front', _⟩, hs, hp⟩ := Option.map_eq_some_iff.mp h
      cases hp
      have ⟨hl, hn⟩ := hi hs
      exact ⟨congrArg _ hl, List.not_mem_cons_of_ne_of_not_mem (Ne.symm hc) hn⟩

-- How the text of a token is made up.
structure Spelled (token : String) (id : Uuid) (secret : String) : Prop where
  exists_id : ∃ idPart, token = "osint_" ++ idPart ++ "." ++ secret ∧ '.' ∉ idPart.toList ∧
    Uuid.parseStr idPart = some id
  nonempty  : secret ≠ ""

theorem parsePresentedToken_eq_ok {p : PresentedToken} (h : parsePresentedToken token = .ok p) :
    Spelled token p.id p.secret := by
  unfold parsePresentedToken at h
  split at h
  case isTrue => cases h
  case isFalse ht =>
    split at h
    case h_1 => cases h
    case h_2 idPart secret hs =>
      split at h
      case isTrue => cases h
      case isFalse hn =>
        split at h
        case h_1 => cases h
        case h_2 id hi =>
          cases h
          have ⟨hl, hd⟩ := splitDot_eq_some hs
          have ht := List.isPrefixOf_iff_prefix.mp (not_not.mp ht)
          refine ⟨⟨.ofList idPart, ?_, by simpa using hd, hi⟩, by simpa [← String.toList_inj] using hn⟩
          have ht := List.prefix_iff_eq_append.mp ht
          rw [String.length_toList, hl] at ht
          rw [← String.toList_inj, ← ht]
          simp [tokenPrefix]

-- What a principal has shown: the token of a stored record which may be used.
structure Granted (lib : Argon2) (now : Timestamp) (s : Table ApiTokenRecord) (token : String)
    (p : Principal) (record : ApiTokenRecord) : Prop where
  stored     : s.get? record.id = some record
  spelled    : ∃ secret, Spelled token record.id secret ∧ lib.Verifies secret record.secretHash
  notRevoked : record.revokedAt = none
  unexpired  : ∀ expiresAt ∈ record.expiresAt, now < expiresAt
  role       : p.role = record.role

theorem authenticate_granted {p : Principal} (h : (authenticateApiToken lib c s token).fst = .ok p) :
    ∃ record, Granted lib c.now s token p record := by
  unfold authenticateApiToken at h
  split at h
  case h_1 => cases h
  case h_2 presented hp =>
    split at h
    case h_1 => cases h
    case h_2 =>
      split at h
      case h_1 => cases h
      case h_2 record hs =>
        split at h
        case h_1 => cases h
        case h_2 hu =>
          split at h
          case h_1 => cases h
          case h_2 => cases h
          case h_3 hv =>
            cases h
            have hk : record.id = presented.id := Table.get?_key hs
            unfold ApiTokenRecord.ensureUsable at hu
            split_ifs at hu with hr he
            refine ⟨record, hk ▸ hs, ⟨_, hk ▸ parsePresentedToken_eq_ok hp,
              verifySecret_eq_true.mp hv⟩, by simpa using hr, fun e hm => ?_, rfl⟩
            simpa [Option.mem_def.mp hm] using he

-- A principal has been granted, and a wrong secret learns the same from any two stores.
structure Secure (lib : Argon2) (c : Call) (s s' : Table ApiTokenRecord) (token : String) : Prop where
  granted : ∀ p, (authenticateApiToken lib c s token).fst = .ok p →
    ∃ record, Granted lib c.now s token p record
  blind   : ∀ p, parsePresentedToken token = .ok p → WrongSecret lib s p → WrongSecret lib s' p →
    (authenticateApiToken lib c s token).fst.toOption = none ∧
    (authenticateApiToken lib c s token).fst = (authenticateApiToken lib c s' token).fst

-- Both records are of the same kind, where one that is missing is like one which may be used.
def SameTell (lib : Argon2) (c : Call) (s s' : Table ApiTokenRecord) (token : String) : Prop :=
  c.storeError = none → ∀ p, parsePresentedToken token = .ok p → WrongSecret lib s p →
    WrongSecret lib s' p → tell lib c.now s p = tell lib c.now s' p

theorem authenticate_secure_iff (lib : Argon2) (c : Call) (s s' : Table ApiTokenRecord)
    (token : String) : Secure lib c s s' token ↔ SameTell lib c s s' token := by
  constructor
  case mp =>
    intro h he p hp hw hw'
    have h := (h.blind p hp hw hw').right
    rw [authenticate_wrongSecret hp hw, authenticate_wrongSecret hp hw', he] at h
    exact Tell.answer_injective <| Except.error.inj h
  case mpr =>
    intro h
    refine ⟨fun _ => authenticate_granted, fun p hp hw hw' => ?_⟩
    rw [authenticate_wrongSecret hp hw, authenticate_wrongSecret hp hw']
    refine ⟨rfl, congrArg Except.error ?_⟩
    cases he : c.storeError
    case some => rfl
    case none => exact congrArg Tell.answer <| h he p hp hw hw'

-- A token whose id is not known is told to be invalid, one which has been revoked to be revoked.
theorem not_authenticate_secure : ¬∀ (lib : Argon2) (c : Call) (s s' : Table ApiTokenRecord)
    (token : String), Secure lib c s s' token := by
  intro h
  let lib : Argon2 :=
    { PasswordHash := String, new := .ok,
      verifyPassword := fun secret hash => if secret = hash then .ok () else .error .passwordInvalid }
  let record : ApiTokenRecord :=
    { id := 1, name := "ci", role := .operator, secretHash := "right", createdBy := none, createdAt := 0,
      expiresAt := none, lastUsedAt := none, revokedAt := some 5 }
  let revoked : Table ApiTokenRecord := (∅ : Table ApiTokenRecord).put record
  have hp : parsePresentedToken "osint_00000000-0000-0000-0000-000000000001.wrong" =
      .ok ⟨1, "wrong"⟩ := by decide +kernel
  have hw : WrongSecret lib revoked ⟨1, "wrong"⟩ := by
    intro r hr
    obtain rfl : record = r := Option.some.inj <| (by rfl : revoked.get? 1 = some record).symm.trans hr
    rintro ⟨parsed, hn, hv⟩
    cases hn
    cases hv
  have h := (h lib { now := 10, usedAt := 10, storeError := none, touched := true } ∅ revoked _).blind _
    hp (fun _ hr => by simp at hr) hw |>.right
  exact absurd h (by decide +kernel)

end Auth
