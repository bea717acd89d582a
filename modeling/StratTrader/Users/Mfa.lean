import StratTrader.Users.Models

/-!
# Codes and single-use tokens

The consumers of single-use secrets, of `users/mfa.py` and `users/models.py`:
`consume_backup_code`, `consume` of the single-use tokens, and `verify_totp`. A consumer is a
program: it looks up the row, and if it may be used it writes that it has been.

## Honest scope

A consumer reads the clock twice, for the test of the expiry and for the time it writes; it
is one reading here. The salts are ASCII, as `secrets.token_hex` makes them.
-/

namespace StratTrader.Users

open StratTrader.Brokers StratTrader.Foundation

variable (rt : Runtime)

/-! ### TOTP -/

/-- The characters of a text but some. -/
def without (c : Char) (s : String) : String := String.ofList (s.toList.filter fun d => decide (d ≠ c))

/-- `verify_totp`: six digits that the library accepts. -/
def verifyTotp (now : ℤ) (secret code : String) : Bool :=
  let code := without ' ' (strip code)
  rt.isDigit code && decide (code.length = 6) && rt.totp secret code now

/-! ### Backup codes -/

/-- `_normalize_backup_code`. -/
def normalizeBackupCode (value : String) : String := rt.upper (strip (without ' ' (without '-' value)))

/-- `_hash_backup_code`, of an ASCII text. -/
def hashBackupCode (raw salt : String) : String := rt.sha256 (salt ++ raw)

/-- The row that a normalized code is that of, among some. -/
def matchingCode (raw : String) (codes : List BackupCode) : Option BackupCode :=
  codes.find? fun code => decide (hashBackupCode rt raw code.salt = code.codeHash)

/-- Whether a text can be a backup code. -/
def isCodeShaped (raw : String) : Bool := decide (raw ≠ "" ∧ raw.length = 8)

/-- What comes of a call of `consume_backup_code`. -/
inductive Consumed where
  /-- It raises: the code is not ASCII. -/
  | raises
  /-- `False`. -/
  | refused
  /-- `True`, and the row it has marked. -/
  | code (id : String)
  deriving DecidableEq

/-- `consume_backup_code`. -/
def consumeBackupCode (now : ℤ) (user : UserId) (code : String) : Prog State Consumed := do
  let raw := normalizeBackupCode rt code
  if !isCodeShaped raw then return .refused
  let codes ← .read fun s => s.unusedCodes user
  if codes ≠ [] ∧ !isAscii raw then return .raises
  match matchingCode rt raw codes with
  | none => return .refused
  | some found =>
    .write fun s =>
      { s with backupCodes := s.backupCodes.modify found.id fun code => { code with usedAt := some now } }
    return .code found.id

/-! ### Single-use tokens -/

/-- A token that may be used. -/
def SingleUseToken.isUsable (now : ℤ) (token : SingleUseToken) : Bool :=
  token.consumedAt.isNone && decide (now ≤ token.expiresAt)

/-- `consume`, of the three classes: the row, once it is marked. -/
def consumeToken (cls : TokenClass) (now : ℤ) (raw : String) : Prog State (Option SingleUseToken) := do
  let found ← .read fun s => (s.tokens cls).find? (rt.sha256 raw)
  match found with
  | none => return none
  | some token =>
    if !token.isUsable now then return none
    .write fun s => s.setToken cls token.tokenHash fun token => { token with consumedAt := some now }
    return some { token with consumedAt := some now }

/-- `EmailVerificationToken.consume`. -/
def consumeEmailVerificationToken : ℤ → String → Prog State (Option SingleUseToken) :=
  consumeToken rt .emailVerification

/-- `PasswordResetToken.consume`. -/
def consumePasswordResetToken : ℤ → String → Prog State (Option SingleUseToken) :=
  consumeToken rt .passwordReset

/-- `OAuthExchangeCode.consume`: the user of the row. -/
def consumeOAuthExchangeCode (now : ℤ) (raw : String) : Prog State (Option UserId) := do
  let token ← consumeToken rt .oauthExchange now raw
  return token.map SingleUseToken.user

end StratTrader.Users
