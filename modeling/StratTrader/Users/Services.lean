import StratTrader.Users.Models

/-!
# Issuing tokens, and the lockout

`users/services.py`: the address of the client, `issue_token_pair`, and the lockout after
failed logins. The cache of the brute-force guards is here too.

## Honest scope

A query or a row with a text that the database does not take for an address raises; what it
takes is a parameter (`Runtime.ipColumn`). The strings of the tokens are left out: a pair is
known by its user, its family and its identifier.
-/

namespace StratTrader.Users

open StratTrader.Brokers StratTrader.Foundation

/-! ### The address of the client -/

/-- `_client_ip`: the first address in `X-Forwarded-For`, when there is such a header. -/
def clientIp (request : RequestMeta) : Option String :=
  match request.forwardedFor with
  | some forwarded => if forwarded ≠ "" then some (firstHop forwarded) else request.remoteAddr
  | none => request.remoteAddr

/-- What a nullable column of IP addresses keeps; `none` if it refuses the text. -/
def storeIp (rt : Runtime) : Option String → Option (Option String)
  | none => some none
  | some ip => if ip = "" then some none else (rt.ipColumn ip).map some

/-! ### The lockout -/

/-- `is_locked`; `none` is an exception. -/
def isLocked (rt : Runtime) (settings : Settings) (now : ℤ) (email : String) (ip : Option String) :
    Prog State (Option Bool) :=
  match storeIp rt ip with
  | none => return none
  | some column => .read fun s =>
    some (decide (settings.lockoutThreshold ≤ s.failedLogins.countP fun attempt =>
      decide (attempt.email = email ∧ now - settings.lockoutWindow ≤ attempt.occurredAt) &&
        (column.isNone || decide (attempt.ip = column))))

/-- `record_failed_login`; `false` is an exception. -/
def recordFailedLogin (rt : Runtime) (now : ℤ) (email : String) (request : RequestMeta) : Prog State Bool :=
  match storeIp rt (clientIp request) with
  | none => return false
  | some column => do
    .write fun s => { s with failedLogins := s.failedLogins ++ [⟨email, column, now⟩] }
    return true

/-- `clear_failed_logins`. -/
def clearFailedLogins (email : String) : Prog State PUnit :=
  .write fun s => { s with failedLogins := s.failedLogins.filter fun attempt => decide (attempt.email ≠ email) }

/-! ### Token pairs -/

/-- An access and a refresh token. -/
structure TokenPair where
  /-- The user. -/
  user : UserId
  /-- The family of the refresh token. -/
  family : FamilyId
  /-- The identifier of the refresh token. -/
  jti : Jti
  deriving DecidableEq

/-- The identifiers that are made for a new pair. -/
structure FreshIds where
  /-- `uuid.uuid4()`, for a family. -/
  familyId : FamilyId
  /-- The identifier of the refresh token. -/
  jti : Jti

/-- The family's row after a rotation. -/
def RefreshTokenFamily.rotated (family : RefreshTokenFamily) (jti : Jti) (ip : Option String) : RefreshTokenFamily :=
  { family with previousJti := family.currentJti, currentJti := jti, ip := ip.or family.ip }

/-- `issue_token_pair` without a family, which creates one; `none` is an exception. -/
def issueTokenPair (rt : Runtime) (fresh : FreshIds) (request : RequestMeta) (user : UserId) :
    Prog State (Option TokenPair) :=
  match storeIp rt (clientIp request) with
  | none => return none
  | some ip => do
    let family : RefreshTokenFamily :=
      { familyId := fresh.familyId, user := user, currentJti := fresh.jti, ip := ip }
    .write fun s => { s with families := s.families.put family }
    return some ⟨user, fresh.familyId, fresh.jti⟩

/-! ### Revoking a family -/

/-- The row after `revoke`. -/
def RefreshTokenFamily.revoked (now : ℤ) (reason : String) (family : RefreshTokenFamily) : RefreshTokenFamily :=
  { family with revokedAt := some now, revokeReason := truncate reason 64 }

/-- `family.revoke`, of a family that was loaded unrevoked. -/
def revokeFamily (now : ℤ) (familyId : FamilyId) (reason : String) : Prog State PUnit :=
  .write fun s => { s with families := s.families.modify familyId (RefreshTokenFamily.revoked now reason) }

/-! ### The cache -/

/-- `cache.get`. -/
def cacheGet (key : String) : Prog State (Option ℕ) := .read fun s => s.cache key

/-- `cache.set`. -/
def cacheSet (key : String) (value : ℕ) : Prog State PUnit :=
  .write fun s => { s with cache := Function.update s.cache key (some value) }

/-- `cache.delete`. -/
def cacheDelete (key : String) : Prog State PUnit :=
  .write fun s => { s with cache := Function.update s.cache key none }

/-- `cache.incr`: `none` is a `ValueError`. -/
def cacheIncr (key : String) : Prog State (Option ℕ) :=
  .atomic (fun s => { s with cache := Function.update s.cache key ((s.cache key).map (· + 1)) })
    fun s => (s.cache key).map (· + 1)

/-- Count a failure: increment the key, or set it to one when it is missing. -/
def countFailure (key : String) : Prog State ℕ := do
  match ← cacheIncr key with
  | some failures => return failures
  | none =>
    cacheSet key 1
    return 1

end StratTrader.Users
