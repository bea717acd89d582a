import StratTrader.Brokers.Base
import StratTrader.Foundation.Atomic
import StratTrader.Foundation.Python
import StratTrader.Foundation.Table

/-!
# Users and their credentials

The rows of `users/models.py` that signing in reads and writes, and the shared state: these
tables and the cache. A secret is kept as the hash that identifies its row, and a TOTP
secret as it is decrypted.

What Python's, Django's and the token libraries compute of texts beyond what is defined
here is a parameter (`Runtime`).

## Honest scope

The hints that a session's page shows (the user agent, the time of the last use), the
profile, and what a token claims of its user beside who it is are left out: nothing here
reads them. A cached value is a number. That cached values expire is a matter of the runs.
-/

namespace StratTrader.Users

open StratTrader.Brokers StratTrader.Foundation

/-! ### Rows -/

/-- `User`. -/
structure User where
  /-- The primary key, as text. -/
  id : UserId
  /-- The address. -/
  email : String
  /-- The hash of the password. -/
  password : String
  /-- Whether the user may sign in at all. -/
  isActive : Bool := true
  /-- Whether the address is verified. -/
  isVerified : Bool := false
  deriving DecidableEq

/-- `MFADevice`: one for a user. -/
structure MFADevice where
  /-- The owner. -/
  user : UserId
  /-- The TOTP secret, decrypted. -/
  secret : String
  /-- Whether enrolment has been confirmed. -/
  verified : Bool := false
  deriving DecidableEq

/-- `BackupCode`. -/
structure BackupCode where
  /-- The primary key, as text. -/
  id : String
  /-- The owner. -/
  user : UserId
  /-- The hash of the salt and the code. -/
  codeHash : String
  /-- The salt. -/
  salt : String
  /-- When it was used, in microseconds. -/
  usedAt : Option ℤ := none
  deriving DecidableEq

/-- A row of `EmailVerificationToken`, `PasswordResetToken` or `OAuthExchangeCode`. -/
structure SingleUseToken where
  /-- The hash of the token, which is unique. -/
  tokenHash : String
  /-- The user it is for. -/
  user : UserId
  /-- When it expires, in microseconds. -/
  expiresAt : ℤ
  /-- When it was consumed, in microseconds. -/
  consumedAt : Option ℤ := none
  deriving DecidableEq

/-- The tables of single-use tokens. -/
inductive TokenClass where
  /-- `EmailVerificationToken`. -/
  | emailVerification
  /-- `PasswordResetToken`. -/
  | passwordReset
  /-- `OAuthExchangeCode`. -/
  | oauthExchange
  deriving DecidableEq

/-- The identifier of a family of refresh tokens. -/
abbrev FamilyId := String

/-- The identifier of a refresh token. -/
abbrev Jti := String

/-- `RefreshTokenFamily`. -/
structure RefreshTokenFamily where
  /-- The primary key, as text. -/
  familyId : FamilyId
  /-- The owner. -/
  user : UserId
  /-- When it was revoked, in microseconds. -/
  revokedAt : Option ℤ := none
  /-- Why it was revoked. -/
  revokeReason : String := ""
  /-- The refresh token that is valid. -/
  currentJti : Jti
  /-- The one before it; empty when there is none. -/
  previousJti : Jti := ""
  /-- The address of the client, as the database keeps it. -/
  ip : Option String := none
  deriving DecidableEq

/-- `is_revoked`. -/
def RefreshTokenFamily.isRevoked (family : RefreshTokenFamily) : Bool := family.revokedAt.isSome

/-- `FailedLoginAttempt`. -/
structure FailedLoginAttempt where
  /-- The address that was signed in with. -/
  email : String
  /-- The address of the client, as the database keeps it. -/
  ip : Option String
  /-- When, in microseconds. -/
  occurredAt : ℤ
  deriving DecidableEq

/-! ### The shared state -/

/-- The database and the cache. -/
structure State where
  /-- The users. -/
  users : Table User.id
  /-- The devices. -/
  devices : Table MFADevice.user
  /-- The backup codes. -/
  backupCodes : Table BackupCode.id
  /-- The single-use tokens. -/
  tokens : TokenClass → Table SingleUseToken.tokenHash
  /-- The families of refresh tokens. -/
  families : Table RefreshTokenFamily.familyId
  /-- The failed logins. -/
  failedLogins : List FailedLoginAttempt
  /-- The cache. -/
  cache : String → Option ℕ

/-- What the libraries make of texts. -/
structure Runtime where
  /-- `str.upper`. -/
  upper : String → String
  /-- `str.isdigit`. -/
  isDigit : String → Bool
  /-- `hashlib.sha256(s.encode()).hexdigest()`. -/
  sha256 : String → String
  /-- Whether a password has a hash. -/
  checkPassword : String → String → Bool
  /-- `make_password`. -/
  makePassword : String → String
  /-- `pyotp.TOTP(secret).verify(code)`, at a time. -/
  totp : String → String → ℤ → Bool
  /-- `issue_mfa_token`, of the user, the new token's identifier and the time. -/
  mfaToken : UserId → String → ℤ → String
  /-- `decode_mfa_token_claims` at a time: the user and the token's identifier, or the text of the
  `InvalidToken`. -/
  decodeMfaToken : String → ℤ → Except String (UserId × String)
  /-- What a column of IP addresses keeps of a text; `none` if it refuses it. -/
  ipColumn : String → Option String

/-- The settings. -/
structure Settings where
  /-- `MFA_ENABLED`. -/
  mfaEnabled : Bool
  /-- `MFA_LOGIN_MAX_FAILURES`. -/
  mfaLoginMaxFailures : ℕ
  /-- `MFA_STEPUP_MAX_FAILURES`. -/
  mfaStepupMaxFailures : ℕ
  /-- `AUTH_LOCKOUT_THRESHOLD`. -/
  lockoutThreshold : ℕ
  /-- `AUTH_LOCKOUT_WINDOW_MINUTES`, in microseconds. -/
  lockoutWindow : ℤ

/-- The headers of a request that are read for the client's address. -/
structure RequestMeta where
  /-- `HTTP_X_FORWARDED_FOR`. -/
  forwardedFor : Option String
  /-- `REMOTE_ADDR`. -/
  remoteAddr : Option String

/-! ### Writes and look-ups -/

/-- `UPDATE` a single-use token. -/
def State.setToken (s : State) (cls : TokenClass) (hash : String) (f : SingleUseToken → SingleUseToken) : State :=
  { s with tokens := Function.update s.tokens cls ((s.tokens cls).modify hash f) }

/-- `user.mfa_enabled`: the user has a device that is verified. -/
def State.mfaEnabled (s : State) (user : UserId) : Bool :=
  (s.devices.find? user).any MFADevice.verified

/-- The device of a user, if it is verified. -/
def State.verifiedDevice (s : State) (user : UserId) : Option MFADevice :=
  (s.devices.find? user).filter MFADevice.verified

/-- The backup codes of a user that are not used. -/
def State.unusedCodes (s : State) (user : UserId) : List BackupCode :=
  s.backupCodes.rows.filter fun code => decide (code.user = user ∧ code.usedAt = none)

/-- The user with an address. -/
def State.userByEmail (s : State) (email : String) : Option User :=
  s.users.rows.find? fun user => decide (user.email = email)

/-! ### Samples -/

/-- The libraries, as they treat ASCII texts, the token `t`, and the codes and tokens of the samples. -/
def sampleRuntime : Runtime where
  upper s := String.ofList (s.toList.map Char.toUpper)
  isDigit s := decide (s ≠ "") && s.toList.all Char.isDigit
  sha256 s := if s = "t" then "e3b98a4da31a127d4bde6e43033f66ba274cab0eb7eb1c70ec41402bf6273dd8" else ""
  checkPassword stored given := decide (stored = "hash of " ++ given)
  makePassword given := "hash of " ++ given
  totp _ code _ := decide (code = "123456")
  mfaToken user jti _ := user ++ "/" ++ jti
  decodeMfaToken token _ := if token = "u/j" then .ok ("u", "j") else .error "Token is invalid"
  ipColumn ip := some ip

/-- The settings as they are without an environment, with `MFA_ENABLED` on. -/
def sampleSettings : Settings := ⟨true, 5, 5, 10, 15 * 60 * 1000000⟩

/-- A user with a verified device, and a token to reset the password. -/
def sampleState : State where
  users := Table.empty.put ⟨"u", "u@example.com", "hash of old", true, true⟩
  devices := Table.empty.put ⟨"u", "JBSWY3DPEHPK3PXP", true⟩
  backupCodes := Table.empty
  tokens cls := match cls with
    | .passwordReset =>
      Table.empty.put ⟨"e3b98a4da31a127d4bde6e43033f66ba274cab0eb7eb1c70ec41402bf6273dd8", "u", 10, none⟩
    | .emailVerification | .oauthExchange => Table.empty
  families := Table.empty
  failedLogins := []
  cache _ := none

end StratTrader.Users
