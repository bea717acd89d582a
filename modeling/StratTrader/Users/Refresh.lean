import StratTrader.Users.Views

/-!
# Refresh tokens

`rotate_refresh`, `revoke_refresh` and `revoke_other_sessions` of `users/services.py`. A
rotation locks the row of the family until it commits, so it is one action. A revocation
looks at the row and then writes two of its columns, as two actions.

## What is proved

* `rotateRow_cases`: a rotation gives a pair and shifts the two identifiers, revokes the family,
  or leaves the row alone.

## Honest scope

A refresh token is known by what it claims once it is decoded; one that is malformed or has
expired does not decode. The user of a family exists, as its foreign key says. The user agent
and the time of the last use are left out, as are the audit entries.
-/

namespace StratTrader.Users

open StratTrader.Brokers StratTrader.Foundation

/-- What a refresh token claims. -/
structure RefreshClaims where
  /-- `family_id`; `none` when it is missing or empty. -/
  familyId : Option FamilyId
  /-- `jti`. -/
  jti : Jti
  /-- `user_id`; `none` when it is missing or empty. -/
  userId : Option UserId

/-- What comes of a call of `rotate_refresh`. -/
inductive Rotation where
  /-- A pair. -/
  | pair (pair : TokenPair)
  /-- An `InvalidToken`. -/
  | invalid (message : String)
  /-- Another exception; the transaction is rolled back. -/
  | raises
  deriving DecidableEq

/-- The identifier of the refresh token of the pair. -/
def Rotation.jti : Rotation → Option Jti
  | .pair issued => some issued.jti
  | .invalid _ | .raises => none

/-- `is_reuse`, of a family that is not revoked: the token is neither the current one nor the one before. -/
def RefreshTokenFamily.isReuse (family : RefreshTokenFamily) (jti : Jti) : Bool :=
  decide (jti ≠ family.currentJti) && decide (family.previousJti = "" ∨ jti ≠ family.previousJti)

/-- Whether a family is revoked. -/
def State.familyRevoked (s : State) (familyId : FamilyId) : Bool :=
  (s.families.find? familyId).any RefreshTokenFamily.isRevoked

/-- Whether a user is active. -/
def State.isActive (s : State) (user : UserId) : Bool := (s.users.find? user).any User.isActive

section
variable (rt : Runtime) (now : ℤ)

/-- What `rotate_refresh` does with the row that it has locked. -/
def rotateRow (fresh : Jti) (request : RequestMeta) (jti : Jti) (active : Bool) (family : RefreshTokenFamily) :
    RefreshTokenFamily × Rotation :=
  if family.isRevoked then (family, .invalid "Refresh token family revoked")
  else if family.isReuse jti then
    (family.revoked now "reuse_detected", .invalid "Refresh token reuse detected — family revoked")
  else if !active then (family, .invalid "User inactive")
  else
    match storeIp rt (clientIp request) with
    | none => (family, .raises)
    | some ip => (family.rotated fresh ip, .pair ⟨family.user, family.familyId, fresh⟩)

/-- `rotate_refresh`, of a token that is decoded. -/
def rotateRefresh (fresh : Jti) (request : RequestMeta) (token : Except String RefreshClaims) :
    Prog State Rotation :=
  match token with
  | .error message => return .invalid message
  | .ok claims =>
    match claims.familyId, claims.userId with
    | some familyId, some _ =>
      .atomic
        (fun s => { s with families := s.families.modify familyId fun family =>
          (rotateRow rt now fresh request claims.jti (s.isActive family.user) family).1 })
        fun s =>
          match s.families.find? familyId with
          | none => .invalid "Unknown refresh token family"
          | some family => (rotateRow rt now fresh request claims.jti (s.isActive family.user) family).2
    | some _, none | none, _ => return .invalid "Refresh token is missing required claims"

/-- `revoke_refresh`. -/
def revokeRefresh (token : Except String RefreshClaims) : Prog State Bool := do
  match token with
  | .error _ => return false
  | .ok claims =>
    match claims.familyId with
    | none => return false
    | some familyId =>
      let found ← .read fun s => s.families.find? familyId
      match found with
      | none => return false
      | some family =>
        if family.isRevoked then return false
        revokeFamily now family.familyId "logout"
        return true

/-- `revoke_other_sessions`. -/
def revokeOtherSessions (user : UserId) (exceptFamilyId : Option FamilyId) (reason : String) : Prog State ℕ := do
  let families ← .read fun s => (s.liveFamilies user).filter fun familyId => decide (some familyId ≠ exceptFamilyId)
  revokeAll now reason families
  return families.length

end

/-! ### What a rotation does -/

section
variable {rt : Runtime} {now : ℤ} {fresh jti : Jti} {request : RequestMeta} {active : Bool}
  {family : RefreshTokenFamily}

@[simp] theorem rotated_currentJti (ip : Option String) : (family.rotated fresh ip).currentJti = fresh := rfl

@[simp] theorem rotated_previousJti (ip : Option String) :
    (family.rotated fresh ip).previousJti = family.currentJti := rfl

/-- A token is not a replay when it is the current one, or the one before. -/
theorem isReuse_eq_false : family.isReuse jti = false ↔
    jti = family.currentJti ∨ (family.previousJti ≠ "" ∧ jti = family.previousJti) := by
  unfold RefreshTokenFamily.isReuse
  rw [Bool.and_eq_false_iff, decide_eq_false_iff_not, decide_eq_false_iff_not]
  tauto

theorem familyId_rotateRow : (rotateRow rt now fresh request jti active family).1.familyId = family.familyId := by
  unfold rotateRow
  split_ifs
  · rfl
  · rfl
  · rfl
  · cases storeIp rt (clientIp request) <;> rfl

/-- A rotation gives a pair and shifts the identifiers, revokes the family, or leaves the row alone. -/
theorem rotateRow_cases (rt : Runtime) (now : ℤ) (fresh jti : Jti) (request : RequestMeta) (active : Bool)
    (family : RefreshTokenFamily) :
    (∃ ip, family.isRevoked = false ∧ family.isReuse jti = false ∧
        rotateRow rt now fresh request jti active family =
          (family.rotated fresh ip, .pair ⟨family.user, family.familyId, fresh⟩)) ∨
      (family.isRevoked = false ∧ family.isReuse jti = true ∧
        rotateRow rt now fresh request jti active family =
          (family.revoked now "reuse_detected", .invalid "Refresh token reuse detected — family revoked")) ∨
      ((rotateRow rt now fresh request jti active family).1 = family ∧
        (rotateRow rt now fresh request jti active family).2.jti = none) := by
  unfold rotateRow
  split_ifs with hrevoked hreuse hactive
  · exact .inr (.inr ⟨rfl, rfl⟩)
  · exact .inr (.inl ⟨by simpa using hrevoked, hreuse, rfl⟩)
  · exact .inr (.inr ⟨rfl, rfl⟩)
  · cases storeIp rt (clientIp request) with
    | none => exact .inr (.inr ⟨rfl, rfl⟩)
    | some ip => exact .inl ⟨ip, by simpa using hrevoked, by simpa using hreuse, rfl⟩

end

/-! ### Samples -/

/-- A family whose current token is `j0`. -/
def sampleFamily : RefreshTokenFamily := { familyId := "f", user := "u", currentJti := "j0" }

/-- The state with the family. -/
def sampleFamilyState : State := { sampleState with families := Table.empty.put sampleFamily }

end StratTrader.Users
