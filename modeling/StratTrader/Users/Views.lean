import StratTrader.Users.Mfa
import StratTrader.Users.Services

/-!
# Signing in

The views of `users/views.py` and `users/views_m02.py` that end in a token pair or lead to
one: registering, verifying the address, logging in, completing the challenge of the second
factor, and resetting the password; and `verify_mfa_code` of `users/mfa.py`. A view is a
program, whose result is `none` when it raises.

## Honest scope

The body of a request is what the serializer makes of it. Rate limits are part of the
environment. Mails, audit entries and metrics are left out.
-/

namespace StratTrader.Users

open StratTrader.Brokers StratTrader.Foundation

/-- What is answered. -/
inductive Response where
  /-- `fail`. -/
  | fail (code message : String) (status : ℕ)
  /-- `ok`, without tokens. -/
  | ok (status : ℕ)
  /-- `ok`, with a challenge of the second factor. -/
  | mfaRequired (mfaToken : String)
  /-- `token_pair_response`. -/
  | pair (pair : TokenPair)
  deriving DecidableEq

/-- The environment of a request. -/
structure ViewEnv where
  /-- `request.limited`. -/
  limited : Bool
  /-- `timezone.now()`. -/
  now : ℤ
  /-- The headers. -/
  request : RequestMeta
  /-- The identifiers that are made for a new pair. -/
  fresh : FreshIds
  /-- The primary key of a new user. -/
  userId : UserId
  /-- A new single-use token: `secrets.token_urlsafe`. -/
  rawToken : String
  /-- The identifier of a new challenge. -/
  challengeJti : String

/-- Why a serializer refuses a body. -/
inductive Invalid where
  /-- The password does not meet the policy. -/
  | weakPassword
  /-- Anything else. -/
  | other

/-- The answer to a body that is refused. -/
def invalidResponse : Invalid → Response
  | .weakPassword => .fail "PASSWORD_WEAK" "Password does not meet policy." 400
  | .other => .fail "VALIDATION_ERROR" "Invalid input." 400

/-- The answer to a request over its rate limit. -/
def rateLimitedResponse : Response := .fail "RATE_LIMITED" "Too many requests." 429

section
variable (rt : Runtime) (settings : Settings) (env : ViewEnv)

/-- `token_pair_response(issue_token_pair(user))`. -/
def pairResponse (user : UserId) : Prog State (Option Response) := do
  let pair ← issueTokenPair rt env.fresh env.request user
  return pair.map .pair

/-- `issue` of a single-use token. -/
def issueToken (cls : TokenClass) (ttl : ℤ) (user : UserId) : Prog State PUnit :=
  let token : SingleUseToken := ⟨rt.sha256 env.rawToken, user, env.now + ttl, none⟩
  .write fun s => { s with tokens := Function.update s.tokens cls ((s.tokens cls).put token) }

/-- An hour, in microseconds. -/
def hour : ℤ := 3600 * 1000000

/-! ### Registering -/

/-- The body of `RegisterView`. -/
structure RegisterData where
  /-- The address, in lower case. -/
  email : String
  /-- The password. -/
  password : String

/-- Whether the constraints let a user be inserted. -/
def State.canAddUser (s : State) (id : UserId) (email : String) : Bool :=
  (s.userByEmail email).isNone && (s.users.find? id).isNone

/-- `User.objects.create_user`: `false` is an `IntegrityError`. -/
def createUser (data : RegisterData) : Prog State Bool :=
  .atomic
    (fun s => if s.canAddUser env.userId data.email then
        { s with users := s.users.put ⟨env.userId, data.email, rt.makePassword data.password, true, false⟩ }
      else s)
    fun s => s.canAddUser env.userId data.email

/-- `RegisterView.post`. -/
def register (body : Except Invalid RegisterData) : Prog State (Option Response) := do
  if env.limited then return some rateLimitedResponse
  match body with
  | .error invalid => return some (invalidResponse invalid)
  | .ok data =>
    let created ← createUser rt env data
    if !created then return some (.ok 202)
    issueToken rt env .emailVerification (24 * hour) env.userId
    return some (.ok 201)

/-- `VerifyEmailView.post`. -/
def verifyEmail (body : Except Invalid String) : Prog State (Option Response) := do
  match body with
  | .error _ => return some (invalidResponse .other)
  | .ok raw =>
    match ← consumeEmailVerificationToken rt env.now raw with
    | none => return some (.fail "TOKEN_INVALID" "Verification token is invalid or expired." 400)
    | some token =>
      .write fun s => { s with users := s.users.modify token.user fun user => { user with isVerified := true } }
      pairResponse rt env token.user

/-! ### Logging in -/

/-- The body of `LoginView`. -/
structure LoginData where
  /-- The address, in lower case. -/
  email : String
  /-- The password. -/
  password : String

/-- `authenticate`: an active user with the password. -/
def authenticate (data : LoginData) (s : State) : Option User :=
  (s.userByEmail data.email).filter fun user => user.isActive && rt.checkPassword user.password data.password

/-- What `LoginView.post` does for a user whose password is right. -/
def loginUser (user : User) : Prog State (Option Response) := do
  if !user.isVerified then
    return some (.fail "EMAIL_NOT_VERIFIED" "Please verify your email before signing in." 403)
  clearFailedLogins user.email
  let enabled ← .read fun s => s.mfaEnabled user.id
  if settings.mfaEnabled && enabled then return some (.mfaRequired (rt.mfaToken user.id env.challengeJti env.now))
  pairResponse rt env user.id

/-- `LoginView.post`. -/
def login (body : Except Invalid LoginData) : Prog State (Option Response) := do
  if env.limited then return some rateLimitedResponse
  match body with
  | .error invalid => return some (invalidResponse invalid)
  | .ok data =>
    let ip := clientIp env.request
    match ← isLocked rt settings env.now data.email ip with
    | none => return none
    | some true =>
      return some (.fail "ACCOUNT_LOCKED" "Account temporarily locked due to repeated failures." 423)
    | some false =>
      match ← .read (authenticate rt data) with
      | none =>
        let recorded ← recordFailedLogin rt env.now data.email env.request
        if !recorded then return none
        match ← isLocked rt settings env.now data.email ip with
        | none => return none
        | some _ => return some (.fail "INVALID_CREDENTIALS" "Invalid email or password." 401)
      | some user => loginUser rt settings env user

/-! ### The second factor -/

/-- The body of `MFAVerifyView`. -/
structure MFAVerifyData where
  /-- The token of the challenge. -/
  mfaToken : String
  /-- The code: 6 to 16 characters. -/
  code : String
  /-- Whether it is a backup code. -/
  isBackupCode : Bool

/-- `user_fail_key`. -/
def loginFailKey (user : UserId) : String := "mfa_login_fail_user:" ++ user

/-- `burn_key`. -/
def burnKey (jti : String) : String := "mfa_login_burned:" ++ jti

/-- `jti_fail_key`. -/
def challengeFailKey (jti : String) : String := "mfa_login_fail_jti:" ++ jti

/-- The answer to a wrong code. -/
def wrongCodeResponse : Response := .fail "MFA_CODE_INVALID" "Code is invalid or already used." 401

/-- Count a wrong code, of the user and of the challenge, which is burned by too many. -/
def wrongCode (user : UserId) (jti : String) : Prog State (Option Response) := do
  let _ ← countFailure (loginFailKey user)
  if jti = "" then return some wrongCodeResponse
  let failures ← countFailure (challengeFailKey jti)
  if settings.mfaLoginMaxFailures ≤ failures then
    cacheSet (burnKey jti) 1
    return some wrongCodeResponse
  return some wrongCodeResponse

/-- Clear the counters, and issue the pair. -/
def rightCode (user : UserId) (jti : String) : Prog State (Option Response) := do
  cacheDelete (loginFailKey user)
  if jti = "" then pairResponse rt env user
  else
    cacheDelete (challengeFailKey jti)
    pairResponse rt env user

/-- Compare the code of a user with a verified device. -/
def compareCode (data : MFAVerifyData) (user : UserId) (device : MFADevice) (jti : String) :
    Prog State (Option Response) := do
  if data.isBackupCode then
    match ← consumeBackupCode rt env.now user data.code with
    | .raises => return none
    | .refused => wrongCode settings user jti
    | .code _ => rightCode rt env user jti
  else if verifyTotp rt env.now device.secret data.code then rightCode rt env user jti
  else wrongCode settings user jti

/-- Whether a challenge has been burned. -/
def isBurned (jti : String) : Prog State Bool :=
  if jti = "" then return false
  else .read fun s => decide ((s.cache (burnKey jti)).getD 0 ≠ 0)

/-- A user, with the device that is verified. -/
def State.mfaUser (s : State) (userId : UserId) : Option (User × Option MFADevice) :=
  (s.users.find? userId).map fun user => (user, s.verifiedDevice user.id)

/-- `MFAVerifyView.post`. -/
def mfaVerify (body : Except Invalid MFAVerifyData) : Prog State (Option Response) := do
  if !settings.mfaEnabled then
    return some (.fail "FEATURE_DISABLED" "MFA is currently disabled by ops." 503)
  if env.limited then return some (.fail "RATE_LIMITED" "Too many attempts." 429)
  match body with
  | .error _ => return some (invalidResponse .other)
  | .ok data =>
    match rt.decodeMfaToken data.mfaToken env.now with
    | .error message =>
      return some (.fail "TOKEN_INVALID" (if message = "" then "MFA token invalid or expired." else message) 401)
    | .ok (userId, jti) =>
      if ← isBurned jti then
        return some (.fail "TOKEN_INVALID" "MFA challenge expired — sign in again." 401)
      let failures ← cacheGet (loginFailKey userId)
      if settings.mfaLoginMaxFailures ≤ failures.getD 0 then
        return some (.fail "MFA_LOCKED" "Too many attempts. Sign in again." 429)
      match ← .read fun s => s.mfaUser userId with
      | none => return some (.fail "TOKEN_INVALID" "MFA token references unknown user." 401)
      | some (user, device) =>
        match device.filter fun _ => user.isActive with
        | none => return some (.fail "TOKEN_INVALID" "User cannot complete MFA." 401)
        | some device => compareCode rt settings env data user.id device jti

/-- The key of the failures of `verify_mfa_code`. -/
def stepupFailKey (user : UserId) : String := "mfa_stepup_fail:" ++ user

/-- Count a wrong code of `verify_mfa_code`. -/
def wrongStepupCode (user : UserId) : Prog State (Option Bool) := do
  let _ ← countFailure (stepupFailKey user)
  return some false

/-- `verify_mfa_code`; `none` is an exception. -/
def verifyMfaCode (now : ℤ) (user : UserId) (code : String) : Prog State (Option Bool) := do
  if code = "" then return some false
  let enabled ← .read fun s => s.mfaEnabled user
  if !enabled then return some false
  let failures ← cacheGet (stepupFailKey user)
  if settings.mfaStepupMaxFailures ≤ failures.getD 0 then return some false
  let device ← .read fun s => s.verifiedDevice user
  if device.any fun device => verifyTotp rt now device.secret code then
    cacheDelete (stepupFailKey user)
    return some true
  match ← consumeBackupCode rt now user code with
  | .raises => return none
  | .code _ =>
    cacheDelete (stepupFailKey user)
    return some true
  | .refused => wrongStepupCode user

/-! ### Resetting the password -/

/-- `PasswordResetView.post`, of an address in lower case. -/
def passwordReset (body : Except Invalid String) : Prog State (Option Response) := do
  if env.limited then return some rateLimitedResponse
  match body with
  | .error invalid => return some (invalidResponse invalid)
  | .ok email =>
    match ← .read fun s => s.userByEmail email with
    | none => return some (.ok 200)
    | some user =>
      issueToken rt env .passwordReset hour user.id
      return some (.ok 200)

/-- The body of `PasswordResetConfirmView`. -/
structure ResetConfirmData where
  /-- The token. -/
  token : String
  /-- The new password. -/
  password : String

/-- `family.revoke` for each, of families that were loaded unrevoked. -/
def revokeAll (now : ℤ) (reason : String) : List FamilyId → Prog State PUnit
  | [] => return
  | familyId :: familyIds => do
    revokeFamily now familyId reason
    revokeAll now reason familyIds

/-- The families of a user that are not revoked. -/
def State.liveFamilies (s : State) (user : UserId) : List FamilyId :=
  (s.families.rows.filter fun family => decide (family.user = user) && !family.isRevoked).map
    RefreshTokenFamily.familyId

/-- `PasswordResetConfirmView.post`. -/
def passwordResetConfirm (body : Except Invalid ResetConfirmData) : Prog State (Option Response) := do
  match body with
  | .error invalid => return some (invalidResponse invalid)
  | .ok data =>
    match ← consumePasswordResetToken rt env.now data.token with
    | none => return some (.fail "TOKEN_INVALID" "Reset token is invalid or expired." 400)
    | some token =>
      let found ← .read fun s => s.users.find? token.user
      match found with
      | none => return none
      | some user =>
        .write fun s => { s with users := s.users.modify user.id fun user =>
          { user with password := rt.makePassword data.password, isVerified := true } }
        clearFailedLogins user.email
        let families ← .read fun s => s.liveFamilies user.id
        revokeAll env.now "password_reset" families
        pairResponse rt env user.id

end

end StratTrader.Users
